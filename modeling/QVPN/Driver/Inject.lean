import QVPN.Driver.Capture
import QVPN.Structures.NewPacket

/-!
# Injection of decoded packets

The body of the client's capture loop for one captured packet. A packet without payload goes
back as it is. A decoded packet that passes the validity check is injected in the shape of the
packet that it arrived in; its bytes are seen through views again, printed, given checksums by
the WinDivert library in place, and printed once more.
-/

namespace QVPN

open Memory

/-- The memory and the number of bytes that the send function of WinDivert is called with. -/
structure WinDivertSend where
  packet : List UByte
  packetLen : ℕ
  deriving DecidableEq, Repr

/-- The bytes that are injected are the first ones of the memory, which must hold so many. -/
def WinDivertSend.injected (send : WinDivertSend) : Except Fault (List UByte) :=
  slice send.packet 0 send.packetLen

/-- The front of the memory is injected, if there is as much of it. -/
theorem WinDivertSend.injected_eq_ok_iff {send : WinDivertSend} {bytes : List UByte} :
    send.injected = .ok bytes ↔
      send.packetLen ≤ send.packet.length ∧ bytes = send.packet.take send.packetLen := by
  rw [injected, slice_eq_ok_iff]
  simp

/-- The same views after their memory has been written to. -/
def FullPacketView.over (mem : List UByte) : FullPacketView → FullPacketView
  | .tcp ip transport payload =>
    .tcp { ip with header := mem }
      { transport with tcpHeader := mem.drop ip.getSize.toNat } payload
  | .udp ip _ payload => .udp { ip with header := mem } ⟨mem.drop ip.getSize.toNat⟩ payload
  | .dummy => .dummy

theorem FullPacketView.over_tcp (mem mem' : List UByte) (transport : TcpPacketView)
    (payload : ℤ × ℤ) : (tcp ⟨mem, 0⟩ transport payload).over mem' =
      .tcp ⟨mem', 0⟩ ⟨mem'.drop 20, transport.tcpOptionsSize⟩ payload := rfl

theorem FullPacketView.over_udp (mem mem' : List UByte) (transport : UdpPacketView)
    (payload : ℤ × ℤ) : (udp ⟨mem, 0⟩ transport payload).over mem' =
      .udp ⟨mem', 0⟩ ⟨mem'.drop 20⟩ payload := rfl

section Loop

-- The checksum helper of the WinDivert library, and the size of a view object. The latter is
-- what the loop passes for the number of bytes of an assembled packet.
variable (calcChecksums : List UByte → List UByte) (sizeofView : ℕ)

/-- What the loop makes of a decoded packet and the packet it arrived in. -/
def injectDecoded (package : FullPacketView) (decoded : QTunnelData) :
    Except Fault (Option WinDivertSend) := do
  if decoded.checkValidity then
    let proxyData := decoded.toQTunnelProxy.create
    let injBytes ← package.newPacketBytesByThis proxyData decoded.data
    let injPacket ← FullPacketView.preParse injBytes injBytes.length
    let _ ← injPacket.toPacketFriendlyView
    let res ← injPacket.bytes injBytes
    let res := calcChecksums res
    let _ ← (injPacket.over res).toPacketFriendlyView
    return some ⟨res, sizeofView⟩
  else
    return none

/-- What is injected for a valid packet, from the views over its assembled bytes. -/
theorem injectDecoded_eq {package view : FullPacketView} {decoded : QTunnelData}
    {bytes : List UByte} (hvalid : decoded.checkValidity = true)
    (hbytes : package.newPacketBytesByThis decoded.toQTunnelProxy decoded.data = .ok bytes)
    (hview : FullPacketView.preParse bytes bytes.length = .ok view)
    (hwhole : view.bytes bytes = .ok bytes) :
    injectDecoded calcChecksums sizeofView package decoded = (do
      let _ ← view.toPacketFriendlyView
      let _ ← (view.over (calcChecksums bytes)).toPacketFriendlyView
      return some ⟨calcChecksums bytes, sizeofView⟩) := by
  rw [injectDecoded, if_pos hvalid]
  dsimp only
  rw [QTunnelProxy.create, hbytes, ok_bind, hview, ok_bind]
  congr 1
  funext _
  rw [hwhole, ok_bind]

/-- Nothing is injected unless a packet was made after the carrier. -/
theorem newPacketByThis_of_injectDecoded {package : FullPacketView} {decoded : QTunnelData}
    {send : WinDivertSend}
    (h : injectDecoded calcChecksums sizeofView package decoded = .ok (some send)) :
    ∃ object, package.newPacketByThis decoded.toQTunnelProxy decoded.data = .ok object := by
  rw [injectDecoded] at h
  split at h
  · obtain ⟨bytes, hbytes, -⟩ := bind_eq_ok_iff.mp h
    obtain ⟨object, hobject, -⟩ := bind_eq_ok_iff.mp hbytes
    exact ⟨object, hobject⟩
  · cases Except.ok.inj h

/-- One captured packet: the first `size` bytes of the receive buffer. -/
def incomingCapture (layers : QVPNLayersSettings) (m : QVPNPacketManager) (packet : List UByte)
    (size : ℕ) : Except Fault (Option WinDivertSend × QVPNPacketManager) := do
  let package ← FullPacketView.preParse packet size
  let data ← package.getPayload packet
  if data.length = 0 then
    return (some ⟨packet, packet.length⟩, m)
  else
    let _ ← package.toPacketFriendlyView
    let (decoded, m) ← decodeData layers m data
    match decoded with
    | some decoded => do
      let send ← injectDecoded calcChecksums sizeofView package decoded
      return (send, m)
    | none => return (none, m)

/-- A packet that is decoded from the payload of a captured packet is injected after it. -/
theorem incomingCapture_eq {layers : QVPNLayersSettings} {m m' : QVPNPacketManager}
    {packet data : List UByte} {size : ℕ} {package : FullPacketView} {decoded : QTunnelData}
    (hpackage : FullPacketView.preParse packet size = .ok package)
    (hdata : package.getPayload packet = .ok data) (hsome : data.length ≠ 0)
    (hprint : package.toPacketFriendlyView = .ok ())
    (hdecode : decodeData layers m data = .ok (some decoded, m')) :
    incomingCapture calcChecksums sizeofView layers m packet size = (do
      let send ← injectDecoded calcChecksums sizeofView package decoded
      return (send, m')) := by
  rw [incomingCapture, hpackage, ok_bind, hdata, ok_bind, if_neg hsome, hprint, ok_bind, hdecode]
  rfl

/-- The manager sees of a captured packet what the loop over payloads shows it. -/
theorem incomingCapture_decodes {m m' : QVPNPacketManager} {packet data : List UByte} {size : ℕ}
    {package : FullPacketView} {send : Option WinDivertSend}
    (hpackage : FullPacketView.preParse packet size = .ok package)
    (hdata : package.getPayload packet = .ok data)
    (h : incomingCapture calcChecksums sizeofView QVPNLayersSettings.defaultLayers m packet size =
      .ok (send, m')) :
    ∃ packets, incomingCaptureLoop m [data] = .ok (packets, m') := by
  rw [incomingCapture, hpackage, ok_bind, hdata, ok_bind] at h
  rw [incomingCaptureLoop]
  split at h
  · next hempty =>
    cases Except.ok.inj h
    exact ⟨[], if_pos hempty⟩
  · next hrest =>
    obtain ⟨_, -, h⟩ := bind_eq_ok_iff.mp h
    obtain ⟨⟨decoded, m''⟩, hdecode, h⟩ := bind_eq_ok_iff.mp h
    have hmanager : m'' = m' := by
      cases decoded with
      | none =>
        cases Except.ok.inj h
        rfl
      | some decoded =>
        obtain ⟨send', -, h⟩ := bind_eq_ok_iff.mp h
        cases Except.ok.inj h
        rfl
    rw [if_neg hrest, hdecode, ok_bind, hmanager]
    exact ⟨_, rfl⟩

end Loop

end QVPN
