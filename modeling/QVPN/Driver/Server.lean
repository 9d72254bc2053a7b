import QVPN.Driver.Codec
import QVPN.Driver.SafeReceive
import QVPN.Structures.Generate

/-!
# The server's loops

The request loop of a client decodes the records of one receive, sets up a connection for each
packet, and sends the packet out on the connection's raw socket. The response loop encodes what
a raw socket received and sends the records to the client that opened it.

A socket object is a descriptor number: copies of the object hold the same number, and nothing
closes a descriptor except an explicit call. What the operating system answers to a call is
given from outside.
-/

namespace QVPN

open BigEndian Memory

abbrev Fd := ℕ

/-- The sockets of a connection. The shadow socket only reserves the port. -/
structure PackedSocket where
  shadowSocket : Option Fd
  rawSocket : Fd
  deriving DecidableEq, Repr

/-- The connections of one client. -/
abbrev SockMap := QVPNServerSocketData → Option PackedSocket

/-- The connections whose raw sockets are listened to, each with the socket of its client. -/
abbrev ResponseSockets := QVPNServerSocketData → Option (Fd × PackedSocket)

/-- What the operating system answers while a connection is set up: the new descriptors, whether
binding and connecting succeed, and the local address of the raw socket after that. -/
structure ConnectOutcome where
  rawSocket : Option Fd
  shadowSocket : Option Fd
  bound : Bool
  connected : Bool
  localAddr : NetAddr
  deriving DecidableEq, Repr

/-- An entry that is there already stays as it is. -/
def addToResponseSocketMap (responseSockets : ResponseSockets) (responseSocket : Fd)
    (socket : PackedSocket) (remoteKey : QVPNServerSocketData) : ResponseSockets :=
  if (responseSockets remoteKey).isNone then
    Function.update responseSockets remoteKey (some (responseSocket, socket))
  else responseSockets

/-- New sockets are made and connected for every packet, and used only for a new key. -/
def connectToServerImpl (net : ConnectOutcome) (responseSocket : Fd) (key : QVPNServerSocketData)
    (sockMap : SockMap) (responseSockets : ResponseSockets) :
    QVPNServerSocketData × SockMap × ResponseSockets :=
  match net.rawSocket with
  | none => (key, sockMap, responseSockets)
  | some rawSocket =>
    if net.bound = false then (key, sockMap, responseSockets)
    else
      let key := { key with serverLocalAddr := net.localAddr }
      if (sockMap key).isSome then (key, sockMap, responseSockets)
      else if net.connected = false then (key, sockMap, responseSockets)
      else
        let socket : PackedSocket := ⟨net.shadowSocket, rawSocket⟩
        (key, Function.update sockMap key (some socket),
          addToResponseSocketMap responseSockets responseSocket socket key)

def dropResponseSocket (responseSockets : ResponseSockets) (key : QVPNServerSocketData) :
    ResponseSockets :=
  Function.update responseSockets key none

/-- An entry that is added leads where it was added for. -/
theorem addToResponseSocketMap_of_some {responseSockets : ResponseSockets} {responseSocket fd : Fd}
    {socket socket' : PackedSocket} {key key' : QVPNServerSocketData}
    (h : addToResponseSocketMap responseSockets responseSocket socket key key' =
      some (fd, socket')) :
    responseSockets key' = some (fd, socket') ∨ fd = responseSocket ∧ socket' = socket := by
  rw [addToResponseSocketMap] at h
  split at h
  · rw [Function.update_apply] at h
    split at h
    · cases h
      exact Or.inr ⟨rfl, rfl⟩
    · exact Or.inl h
  · exact Or.inl h

/-- Adding an entry leaves one at its key and wherever there was one. -/
theorem addToResponseSocketMap_isSome (responseSockets : ResponseSockets) (responseSocket : Fd)
    (socket : PackedSocket) {key key' : QVPNServerSocketData}
    (h : key' = key ∨ (responseSockets key').isSome) :
    (addToResponseSocketMap responseSockets responseSocket socket key key').isSome := by
  rw [addToResponseSocketMap]
  split
  · rw [Function.update_apply]
    split
    · rfl
    · exact h.resolve_left (by assumption)
  · rename_i hsome
    obtain rfl | h := h
    · exact Option.isSome_iff_ne_none.mpr (by simpa using hsome)
    · exact h

/-- Setting up a connection changes nothing, or enters one new socket in both maps. -/
theorem connectToServerImpl_cases (net : ConnectOutcome) (responseSocket : Fd)
    (key : QVPNServerSocketData) (sockMap : SockMap) (responseSockets : ResponseSockets) :
    (connectToServerImpl net responseSocket key sockMap responseSockets).2 =
        (sockMap, responseSockets) ∨
      ∃ key' socket, net.rawSocket = some socket.rawSocket ∧
        (connectToServerImpl net responseSocket key sockMap responseSockets).2 =
          (Function.update sockMap key' (some socket),
            addToResponseSocketMap responseSockets responseSocket socket key') := by
  unfold connectToServerImpl
  split
  · exact Or.inl rfl
  · split
    · exact Or.inl rfl
    · dsimp only
      split
      · exact Or.inl rfl
      · split
        · exact Or.inl rfl
        · exact Or.inr ⟨_, ⟨net.shadowSocket, _⟩, by assumption, rfl⟩

/-- Setting up a connection adds at most one entry: it leads to the client whose packet it was. -/
theorem connectToServerImpl_responseSockets {net : ConnectOutcome} {responseSocket fd : Fd}
    {key key' : QVPNServerSocketData} {sockMap : SockMap} {responseSockets : ResponseSockets}
    {socket : PackedSocket}
    (h : (connectToServerImpl net responseSocket key sockMap responseSockets).2.2 key' =
      some (fd, socket)) :
    responseSockets key' = some (fd, socket) ∨
      fd = responseSocket ∧ net.rawSocket = some socket.rawSocket := by
  obtain hsame | ⟨_, _, hraw, hnew⟩ :=
    connectToServerImpl_cases net responseSocket key sockMap responseSockets
  · rw [hsame] at h
    exact Or.inl h
  · rw [hnew] at h
    obtain hold | ⟨hfd, rfl⟩ := addToResponseSocketMap_of_some h
    · exact Or.inl hold
    · exact Or.inr ⟨hfd, hraw⟩

/-- Entries are only taken out. -/
theorem dropResponseSocket_of_some {responseSockets : ResponseSockets}
    {key key' : QVPNServerSocketData} {e : Fd × PackedSocket}
    (h : dropResponseSocket responseSockets key key' = some e) : responseSockets key' = some e := by
  rw [dropResponseSocket] at h
  by_cases hkey : key' = key
  · rw [hkey, Function.update_self] at h
    cases h
  · rwa [Function.update_of_ne hkey] at h

def generateNetHeader (strategy : Ipv4DefaultGenStrategy) (data : QTunnelProxy)
    (key : QVPNServerSocketData) (totalLen : UShort) :
    Except Fault (NetPacketObject × Ipv4DefaultGenStrategy) :=
  if data.netProtocol = .IPv4 then do
    let (packet, strategy) ← Ipv4PacketLittleEndian.generateObject strategy key.serverLocalAddr
      data.dstAddr data.transportProtocol totalLen true false 0
    return (.ipv4 packet, strategy)
  else return (.dummy, strategy)

/-- The fields of the tunnel scheme, between the port of the key and the destination port. -/
def generateTransportHeader (data : QTunnelProxy) (key : QVPNServerSocketData) :
    Except Fault TransportPacketObject :=
  if data.transportProtocol = .TCP then do
    let scheme := QTunnelTCPViewScheme.ofBytes data.protoData.data
    let options ← scheme.getOptions
    let seq ← scheme.getSeq
    let ack ← scheme.getAck
    let offset ← scheme.getOffset
    let flags ← scheme.getFlags
    let window ← scheme.getWindow
    let urgent ← scheme.getUrgentPointer
    let packet ← TcpPacketLittleEndian.generateObject key.localPort data.dstPort seq ack offset
      flags window urgent options
    return .tcp packet
  else if data.transportProtocol = .UDP then do
    let scheme : QTunnelUDPViewScheme := ⟨data.protoData.data⟩
    let length ← scheme.getLength
    return .udp (UdpPacketLittleEndian.generateObject key.localPort data.dstPort length)
  else return .dummy

def generateFullPacket (data : QTunnelProxy) (net : NetPacketObject)
    (transport : TransportPacketObject) (payload : List UByte) : Except Fault FullPacketObject :=
  if data.transportProtocol = .TCP then do
    let n ← net.toBytes
    let t ← transport.toBytes
    FullPacketObject.ofTcp n t payload
  else if data.transportProtocol = .UDP then do
    let n ← net.toBytes
    let t ← transport.toBytes
    FullPacketObject.ofUdp n t payload
  else return .dummy

/-- The packet that leaves the server. -/
def generateSenderPacket (strategy : Ipv4DefaultGenStrategy) (data : QTunnelProxy)
    (key : QVPNServerSocketData) (payload : List UByte) :
    Except Fault (FullPacketObject × Ipv4DefaultGenStrategy) := do
  let transport ← generateTransportHeader data key
  let size ← transport.getTransportLength
  let (net, strategy) ← generateNetHeader strategy data key (size + UInt16.ofNat payload.length)
  let packet ← generateFullPacket data net transport payload
  let packet ← packet.recalculateChecksums
  return (packet, strategy)

/-- The key before the connection is set up: the server's address is not known yet. -/
def QTunnelData.key (packet : QTunnelData) : QVPNServerSocketData where
  netProto := packet.netProtocol
  transportProto := packet.transportProtocol
  clientLocalAddr := packet.sourceAddr
  serverLocalAddr := .default
  localPort := packet.sourcePort
  remoteAddr := packet.dstAddr
  remotePort := packet.dstPort

/-- What the operating system answers while one record is handled. -/
structure RequestOutcome where
  connect : ConnectOutcome
  sent : Bool
  deriving DecidableEq, Repr

/-- A packet handed to a raw socket. -/
structure ForwardedPacket where
  packet : QTunnelData
  key : QVPNServerSocketData
  rawSocket : Fd
  bytes : List UByte
  deriving DecidableEq, Repr

/-- What the request loop of a client does to the network: the connections, and the packets it
handed to raw sockets so far. -/
structure Connections where
  strategy : Ipv4DefaultGenStrategy
  sockMap : SockMap
  responseSockets : ResponseSockets
  sends : List ForwardedPacket

namespace Connections

/-- The key of a packet once its connection is set up, and the connections after that. -/
def connectIfNotToServer (c : Connections) (net : ConnectOutcome) (client : Fd)
    (packet : QTunnelData) : QVPNServerSocketData × Connections :=
  let (key, sockMap, responseSockets) :=
    connectToServerImpl net client packet.key c.sockMap c.responseSockets
  (key, { c with sockMap, responseSockets })

/-- Hand a packet to the socket of its connection, unless there is none. The packet is printed
before. -/
def forwardPacket (c : Connections) (net : ConnectOutcome) (client : Fd) (packet : QTunnelData) :
    Except Fault (Option (QVPNServerSocketData × FullPacketObject) × Connections) := do
  let (key, c) := c.connectIfNotToServer net client packet
  match c.sockMap key with
  | none => return (none, c)
  | some serverSocket => do
    let (object, strategy) ← generateSenderPacket c.strategy packet.create key packet.data
    let _ ← object.toPacketFriendlyView
    return (some (key, object), { c with
      strategy
      sends := c.sends ++ [⟨packet, key, serverSocket.rawSocket, object.bytes⟩] })

end Connections

/-- What a client's request loop works on, with the records it passed to the decoder so far. -/
structure RequestState where
  manager : QVPNPacketManager
  decoded : List (List UByte)
  connections : Connections

namespace RequestState

/-- One round of the loop over the records: the value that the iteration returns early, if it
does, and the state. -/
def requestRound (layers : QVPNLayersSettings) (client : Fd) (net : RequestOutcome)
    (s : RequestState) (record : List UByte) : Except Fault (Option Bool × RequestState) := do
  let (decodedData, manager) ← decodeData layers s.manager record
  let decoded := s.decoded ++ [record]
  match decodedData with
  | none => return (some true, ⟨manager, decoded, s.connections⟩)
  | some packet => do
    let (forwarded, c) ← s.connections.forwardPacket net.connect client packet
    match forwarded with
    | none => return (some false, ⟨manager, decoded, c⟩)
    | some (key, object) =>
      if net.sent = false then return (some true, ⟨manager, decoded, c⟩)
      else do
        let reset ← object.isResetConnectionPacket
        if reset then
          return (some true, ⟨manager, decoded, { c with
            responseSockets := dropResponseSocket c.responseSockets key }⟩)
        else return (none, ⟨manager, decoded, c⟩)

/-- The loop over the objects of a receive. -/
def requestLoop (layers : QVPNLayersSettings) (client : Fd) (net : ℕ → RequestOutcome)
    (received : SafeReceiveData) : List ℕ → RequestState → Except Fault (Bool × RequestState)
  | [], s => .ok (true, s)
  | i :: rest, s => do
    let record ← received.getObjectBytes i
    let (exit, s) ← requestRound layers client (net i) s record
    match exit with
    | some result => return (result, s)
    | none => requestLoop layers client net received rest s

/-- One iteration of the request loop; the client's loop goes on as long as it returns true. -/
def vpnRequestLoopIteration (layers : QVPNLayersSettings) (client : Fd) (net : ℕ → RequestOutcome)
    (received : SafeReceiveData) (s : RequestState) : Except Fault (Bool × RequestState) :=
  requestLoop layers client net received (List.range received.getObjectsNum) s

end RequestState

/-- Send the records one after the other until a send fails: the records handed to the socket. -/
def sendRecords (packet : SplittedPacket) (sent : ℕ → Bool) :
    List ℕ → Except Fault (List (List UByte))
  | [] => .ok []
  | i :: rest => do
    let record ← packet.getRawPacket i
    if sent i = false then return [record]
    else do
      let records ← sendRecords packet sent rest
      return record :: records

def encodeAndSend (layers : QVPNLayersSettings) (m : QVPNPacketManager) (sent : ℕ → Bool)
    (proxy : QTunnelProxy) (payload : List UByte) :
    Except Fault (List (List UByte) × QVPNPacketManager) := do
  let (packet, m) ← encodeData layers m proxy payload
  let records ← sendRecords packet sent (List.range packet.size)
  return (records, m)

/-- One packet of a raw socket: the records for the client, whether the connection is dropped,
and the manager. The packet is printed before anything is sent. -/
def vpnResponseLoopIteration (layers : QVPNLayersSettings) (m : QVPNPacketManager)
    (sent : ℕ → Bool) (key : QVPNServerSocketData) (mem : List UByte) (size : ℕ) :
    Except Fault (List (List UByte) × Bool × QVPNPacketManager) := do
  let response ← FullPacketView.preParse mem size
  let _ ← response.toPacketFriendlyView
  let protoData ← response.collectProtoData
  let net ← response.getProtocolVersion
  let transport ← response.getTransportProtocol
  let src ← response.getSrcAddr
  let srcPort ← response.getSrcPort
  let payload ← response.getPayload mem
  let (records, m) ← encodeAndSend layers m sent
    ⟨net, transport, src, srcPort, key.clientLocalAddr, key.localPort, protoData⟩ payload
  let reset ← response.isResetConnectionPacket
  return (records, reset, m)

/-- A received packet lies at the front of an array of zeros. -/
def receiveBuffer (packet : List UByte) : List UByte :=
  packet ++ List.replicate (65536 - packet.length) 0

/-- The bytes of a generated IP header hold the server's address and the destination. -/
theorem generateNetHeader_toBytes {strategy strategy' : Ipv4DefaultGenStrategy}
    {data : QTunnelProxy} {key : QVPNServerSocketData} {totalLen : UShort} {net : NetPacketObject}
    {bytes : List UByte} (hnet : data.netProtocol = .IPv4)
    (h : generateNetHeader strategy data key totalLen = .ok (net, strategy'))
    (hbytes : net.toBytes = .ok bytes) :
    ∃ mid src dst, mid.length = 11 ∧ key.serverLocalAddr.toIpv4 = .ok src ∧
      data.dstAddr.toIpv4 = .ok dst ∧ bytes = [0x45] ++ mid ++ (src ++ dst) := by
  rw [generateNetHeader, if_pos hnet] at h
  obtain ⟨⟨packet, strategy₁⟩, hobject, h⟩ := bind_eq_ok_iff.mp h
  cases Except.ok.inj h
  obtain ⟨⟨header, strategy₂⟩, hheader, hobject⟩ := bind_eq_ok_iff.mp hobject
  obtain ⟨copy, hcopy, hobject⟩ := bind_eq_ok_iff.mp hobject
  cases Except.ok.inj hobject
  obtain ⟨mid, src, dst, hmid, hsrc, hdst, hform⟩ :=
    Ipv4PacketLittleEndian.generateObjectBytes_addrs hheader
  have hlen : header.length = 20 := by
    rw [hform]
    simp [hmid, NetAddr.toIpv4_length hsrc, NetAddr.toIpv4_length hdst]
  have hsame := NetPacketObject.toBytes_generated (mid ++ (src ++ dst)) hform hlen hcopy
  rw [hsame] at hbytes
  cases Except.ok.inj hbytes
  exact ⟨mid, src, dst, hmid, hsrc, hdst, hform⟩

/-- The bytes of a generated transport header begin with the key's port and the destination's. -/
theorem generateTransportHeader_toBytes {data : QTunnelProxy} {key : QVPNServerSocketData}
    {transport : TransportPacketObject} {bytes : List UByte}
    (htransport : data.transportProtocol = .TCP ∨ data.transportProtocol = .UDP)
    (h : generateTransportHeader data key = .ok transport) (hbytes : transport.toBytes = .ok bytes) :
    ∃ rest, bytes = bytes16 key.localPort ++ bytes16 data.dstPort ++ rest := by
  unfold generateTransportHeader at h
  by_cases htcp : data.transportProtocol = .TCP
  · rw [if_pos htcp] at h
    obtain ⟨options, -, h⟩ := bind_eq_ok_iff.mp h
    obtain ⟨seq, -, h⟩ := bind_eq_ok_iff.mp h
    obtain ⟨ack, -, h⟩ := bind_eq_ok_iff.mp h
    obtain ⟨offset, -, h⟩ := bind_eq_ok_iff.mp h
    obtain ⟨flags, -, h⟩ := bind_eq_ok_iff.mp h
    obtain ⟨window, -, h⟩ := bind_eq_ok_iff.mp h
    obtain ⟨urgent, -, h⟩ := bind_eq_ok_iff.mp h
    obtain ⟨packet, hpacket, h⟩ := bind_eq_ok_iff.mp h
    cases Except.ok.inj h
    exact TransportPacketObject.toBytes_tcp hpacket hbytes
  · rw [if_neg htcp, if_pos (htransport.resolve_left htcp)] at h
    obtain ⟨length, -, h⟩ := bind_eq_ok_iff.mp h
    cases Except.ok.inj h
    have hwhole : (TransportPacketObject.udp (UdpPacketLittleEndian.generateObject key.localPort
        data.dstPort length)).toBytes = .ok (bytes16 key.localPort ++ bytes16 data.dstPort ++
          (bytes16 length ++ [0, 0])) := by
      rw [TransportPacketObject.toBytes, UdpPacketView.toTransportBytes,
        UdpPacketLittleEndian.generateObject, UdpPacketLittleEndian.generateObjectBytes,
        List.append_assoc]
      exact slice_all _ _ rfl
    rw [hwhole] at hbytes
    cases Except.ok.inj hbytes
    exact ⟨_, rfl⟩

/-- Where a sent packet says that it comes from and goes to. -/
theorem generateSenderPacket_addrs {strategy strategy' : Ipv4DefaultGenStrategy}
    {data : QTunnelProxy} {key : QVPNServerSocketData} {payload : List UByte}
    {object : FullPacketObject} (hnet : data.netProtocol = .IPv4)
    (htransport : data.transportProtocol = .TCP ∨ data.transportProtocol = .UDP)
    (h : generateSenderPacket strategy data key payload = .ok (object, strategy')) :
    ∃ mid src dst rest, mid.length = 11 ∧ key.serverLocalAddr.toIpv4 = .ok src ∧
      data.dstAddr.toIpv4 = .ok dst ∧ object.bytes = [0x45] ++ mid ++ (src ++ dst) ++
        (bytes16 key.localPort ++ bytes16 data.dstPort ++ rest) := by
  obtain ⟨transport, hheader, h⟩ := bind_eq_ok_iff.mp h
  obtain ⟨size, -, h⟩ := bind_eq_ok_iff.mp h
  obtain ⟨⟨net, strategy₁⟩, hip, h⟩ := bind_eq_ok_iff.mp h
  obtain ⟨packet, hpacket, h⟩ := bind_eq_ok_iff.mp h
  obtain ⟨packet', hrecalc, h⟩ := bind_eq_ok_iff.mp h
  cases Except.ok.inj h
  have hform : ∃ n t, net.toBytes = .ok n ∧ transport.toBytes = .ok t ∧
      (packet = .tcp (n ++ t ++ payload) ∨ packet = .udp (n ++ t ++ payload)) := by
    unfold generateFullPacket at hpacket
    by_cases htcp : data.transportProtocol = .TCP
    · rw [if_pos htcp] at hpacket
      obtain ⟨n, hn, hpacket⟩ := bind_eq_ok_iff.mp hpacket
      obtain ⟨t, ht, hpacket⟩ := bind_eq_ok_iff.mp hpacket
      obtain ⟨_, -, hpacket⟩ := bind_eq_ok_iff.mp hpacket
      obtain ⟨_, -, hpacket⟩ := bind_eq_ok_iff.mp hpacket
      obtain ⟨_, -, hpacket⟩ := bind_eq_ok_iff.mp hpacket
      cases Except.ok.inj hpacket
      exact ⟨n, t, hn, ht, Or.inl rfl⟩
    · rw [if_neg htcp, if_pos (htransport.resolve_left htcp)] at hpacket
      obtain ⟨n, hn, hpacket⟩ := bind_eq_ok_iff.mp hpacket
      obtain ⟨t, ht, hpacket⟩ := bind_eq_ok_iff.mp hpacket
      obtain ⟨_, -, hpacket⟩ := bind_eq_ok_iff.mp hpacket
      cases Except.ok.inj hpacket
      exact ⟨n, t, hn, ht, Or.inr rfl⟩
  obtain ⟨n, t, hn, ht, hform⟩ := hform
  obtain ⟨mid, src, dst, hmid, hsrc, hdst, rfl⟩ := generateNetHeader_toBytes hnet hip hn
  obtain ⟨rest, rfl⟩ := generateTransportHeader_toBytes htransport hheader ht
  have haddrs : (src ++ dst).length = 8 := by
    rw [List.length_append, NetAddr.toIpv4_length hsrc, NetAddr.toIpv4_length hdst]
  rw [List.append_assoc _ _ payload, List.append_assoc (bytes16 key.localPort ++ _) rest] at hform
  obtain ⟨mid', rest', hmid', hbytes⟩ :=
    FullPacketObject.recalculateChecksums_frame hmid haddrs (by simp) hform hrecalc
  exact ⟨mid', src, dst, rest', hmid', hsrc, hdst, hbytes⟩

end QVPN
