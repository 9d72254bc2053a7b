import QVPN.Driver.PacketManager

/-!
# Layers

A layer wraps bytes on the way out and unwraps them on the way in. The only layer is the
quiet one, which frames application data as a TLS record. A layer stack applies its active
layers in order when it encodes and in reverse order when it decodes.
-/

namespace QVPN

open Memory

namespace QLayer

def layerEncodePbProxy (pb : PacketBuilderData) (proxy : QTunnelProxy) (data : List UByte) :
    Except Fault (List UByte) := do
  let body ← TLS13ApplicationData.generateObjectBytesPbProxy pb proxy data
  return TLS13Record.generateObjectBytes body

def layerEncodePb (pb : PacketBuilderData) (data : List UByte) : List UByte :=
  TLS13Record.generateObjectBytes (TLS13ApplicationData.generateObjectBytesPb pb data)

/-- Copy the range that the application-data view of the record view delimits. -/
def layerDecode (data : List UByte) : Except Fault (List UByte) :=
  let (b, e) := TLS13RecordView.getTlsRecordData data.length
  let (b, e) := TLS13ApplicationDataView.getAppData b e
  slice data b e

end QLayer

/-- A quiet layer that can be switched off. -/
structure LayerWrapper where
  active : Bool
  deriving DecidableEq, Repr

/-- The layers of a driver, outermost last. -/
abbrev QVPNLayersSettings := List LayerWrapper

namespace QVPNLayersSettings

/-- The default strategy has one active quiet layer. -/
def defaultLayers : QVPNLayersSettings := [⟨true⟩]

def layersEncodePbProxy (layers : QVPNLayersSettings) (pb : PacketBuilderData)
    (proxy : QTunnelProxy) (data : List UByte) : Except Fault (List UByte) :=
  layers.foldlM (fun res l => if l.active then QLayer.layerEncodePbProxy pb proxy res else .ok res)
    data

def layersEncodePb (layers : QVPNLayersSettings) (pb : PacketBuilderData) (data : List UByte) :
    List UByte :=
  layers.foldl (fun res l => if l.active then QLayer.layerEncodePb pb res else res) data

def layersDecode (layers : QVPNLayersSettings) (data : List UByte) : Except Fault (List UByte) :=
  layers.reverse.foldlM (fun res l => if l.active then QLayer.layerDecode res else .ok res) data

/-- The default stack encodes with its one layer. -/
theorem layersEncodePbProxy_default (pb : PacketBuilderData) (proxy : QTunnelProxy)
    (data : List UByte) :
    defaultLayers.layersEncodePbProxy pb proxy data = QLayer.layerEncodePbProxy pb proxy data := by
  simp only [layersEncodePbProxy, defaultLayers, List.foldlM_cons, List.foldlM_nil, if_true,
    bind_pure]

theorem layersDecode_default (data : List UByte) :
    defaultLayers.layersDecode data = QLayer.layerDecode data := by
  simp only [layersDecode, defaultLayers, List.reverse_singleton, List.foldlM_cons,
    List.foldlM_nil, if_true, bind_pure]

end QVPNLayersSettings

/-- A record whose size fits sixteen bits is unwrapped to its body. -/
theorem QLayer.layerDecode_record {body : List UByte} (h : body.length ≤ 65530) :
    QLayer.layerDecode (TLS13Record.generateObjectBytes body) = .ok body := by
  have hlen := TLS13Record.generateObjectBytes_length body
  have hview : (UInt16.ofNat (5 + body.length)).toNat = 5 + body.length := by
    simp
    omega
  have happ : (UInt16.ofInt (((5 + body.length : ℕ) : ℤ) - 5)).toNat = body.length := by
    rw [BigEndian.toNat_ofInt]
    omega
  rw [layerDecode, hlen]
  simp only [TLS13RecordView.getTlsRecordData, TLS13ApplicationDataView.getAppData, hview, happ]
  exact slice_suffix ([23, 0x03, 0x03] ++ BigEndian.bytes16 _) body _ _ rfl rfl

end QVPN
