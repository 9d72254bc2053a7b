import QVPN.Driver.TrafficFilter

/-!
# Capture filters

The client keeps a list of filters for each direction. A filter that is added goes to the end of its
list, and the filter string is joined anew. Each start of a capture adds the default filters of the
direction and hands the string to the capture library.
-/

namespace QVPN

inductive Direction where
  | outgoing
  | incoming
  deriving DecidableEq, Repr

/-- The filters of both directions, and the strings that were last made of them. -/
structure CaptureFilters where
  filters : Direction → List FilterText
  filtersData : Direction → FilterText

/-- A call of the program that uses the client. -/
inductive CaptureCall (φ : Type) where
  | add (d : Direction) (filter : φ)
  | start (d : Direction)
  deriving DecidableEq, Repr

def CaptureCall.map {φ ψ : Type} (f : φ → ψ) : CaptureCall φ → CaptureCall ψ
  | .add d filter => .add d (f filter)
  | .start d => .start d

namespace WinDivertClientVPNNetDriver

/-- What the client captures of incoming traffic: packets of the server. -/
def defaultIncomingFilter (vpnAddress : NetAddr) : List FilterExpr :=
  [.atom .incomingTraffic, .atom (.source vpnAddress), .not (.atom (.tcpSrcPort 22)),
    .not (.atom .localTraffic), .atom (.source ⟨[195, 82, 146, 78]⟩)]

def defaultFilter (vpnAddress : NetAddr) : Direction → List FilterExpr
  | .outgoing => defaultOutgoingFilter vpnAddress
  | .incoming => defaultIncomingFilter vpnAddress

/-- Filters go to the end of the list of a direction. -/
def pushFilters (d : Direction) (fs : List FilterText) (s : CaptureFilters) : CaptureFilters :=
  { s with filters := Function.update s.filters d (s.filters d ++ fs) }

/-- The filters of both directions are joined in the same way. -/
def calculateFilters (d : Direction) (s : CaptureFilters) : CaptureFilters :=
  { s with filtersData := Function.update s.filtersData d (calculateOutgoingFilters (s.filters d)) }

def applyDefaultFilter (vpnAddress : NetAddr) (d : Direction) (s : CaptureFilters) : CaptureFilters :=
  pushFilters d ((defaultFilter vpnAddress d).map FilterExpr.text) s

def addTrafficFilter (d : Direction) (filter : FilterText) (s : CaptureFilters) : CaptureFilters :=
  calculateFilters d (pushFilters d [filter] s)

/-- The string that is handed over, and the filters after that. -/
def startCaptureTraffic (vpnAddress : NetAddr) (d : Direction) (s : CaptureFilters) :
    FilterText × CaptureFilters :=
  let s := calculateFilters d (applyDefaultFilter vpnAddress d s)
  (s.filtersData d, s)

def addOutgoingTrafficFilter : FilterText → CaptureFilters → CaptureFilters :=
  addTrafficFilter .outgoing

def addIncomingTrafficFilter : FilterText → CaptureFilters → CaptureFilters :=
  addTrafficFilter .incoming

def startCaptureOutgoingTraffic (vpnAddress : NetAddr) :
    CaptureFilters → FilterText × CaptureFilters :=
  startCaptureTraffic vpnAddress .outgoing

def startCaptureIncomingTraffic (vpnAddress : NetAddr) :
    CaptureFilters → FilterText × CaptureFilters :=
  startCaptureTraffic vpnAddress .incoming

/-- The strings that the calls of the program hand to the capture library. -/
def captureCalls (vpnAddress : NetAddr) :
    List (CaptureCall FilterText) → CaptureFilters → List (Direction × FilterText)
  | [], _ => []
  | .add .outgoing filter :: calls, s =>
    captureCalls vpnAddress calls (addOutgoingTrafficFilter filter s)
  | .add .incoming filter :: calls, s =>
    captureCalls vpnAddress calls (addIncomingTrafficFilter filter s)
  | .start .outgoing :: calls, s =>
    let (text, s) := startCaptureOutgoingTraffic vpnAddress s
    (.outgoing, text) :: captureCalls vpnAddress calls s
  | .start .incoming :: calls, s =>
    let (text, s) := startCaptureIncomingTraffic vpnAddress s
    (.incoming, text) :: captureCalls vpnAddress calls s

end WinDivertClientVPNNetDriver

end QVPN
