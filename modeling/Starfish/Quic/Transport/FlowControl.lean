import Starfish.Quic.Frame

/-!
# Flow control (RFC 9000, section 4)

The connection and every stream keep the same five counters. The connection is
charged with the number of new bytes, a stream with the highest offset it has
seen; the stream's own counter therefore computes the charge of the connection.
-/

namespace Starfish.Quic

/-- The counters of one flow-control level. On a stream, `received` is the
highest byte offset received; on the connection it is a running total. -/
structure FlowControl where
  sendMax : Nat
  sent : Nat
  recvMax : Nat
  received : Nat
  initialWindow : Nat
deriving DecidableEq, Repr

namespace FlowControl

def new (initialSendMax initialRecvMax : Nat) : FlowControl where
  sendMax := initialSendMax
  sent := 0
  recvMax := initialRecvMax
  received := 0
  initialWindow := initialRecvMax

def sendWindow (fc : FlowControl) : Nat := fc.sendMax - fc.sent

def onDataSent (fc : FlowControl) (n : Nat) : FlowControl := { fc with sent := fc.sent + n }

/-- A MAX_DATA or MAX_STREAM_DATA frame never lowers the limit. -/
def updateSendMax (fc : FlowControl) (newMax : Nat) : FlowControl :=
  if fc.sendMax < newMax then { fc with sendMax := newMax } else fc

/-- Transport parameters replace the limit. -/
def setSendMax (fc : FlowControl) (newMax : Nat) : FlowControl := { fc with sendMax := newMax }

/-- The limit to advertise once more than half of the window has been used. -/
def shouldSendMax (fc : FlowControl) : Option Nat :=
  if fc.recvMax - fc.initialWindow / 2 ≤ fc.received then some (fc.received + fc.initialWindow)
  else none

def commitMax (fc : FlowControl) (newMax : Nat) : FlowControl := { fc with recvMax := newMax }

/-- A BLOCKED hint extends the limit by one window when the peer has reached it. -/
def updateFromBlocked (fc : FlowControl) (blockedAt : Nat) : Option Nat × FlowControl :=
  if blockedAt < fc.recvMax then (some fc.recvMax, fc)
  else
    let newMax := saturatingAdd fc.recvMax fc.initialWindow
    let fc := if fc.recvMax < newMax then { fc with recvMax := newMax } else fc
    (some fc.recvMax, fc)

def checkRecvLimit (fc : FlowControl) : Bool := decide (fc.received ≤ fc.recvMax)

end FlowControl

abbrev ConnectionFlowControl := FlowControl

abbrev StreamFlowControl := FlowControl

def ConnectionFlowControl.onDataReceived (fc : ConnectionFlowControl) (n : Nat) :
    ConnectionFlowControl :=
  { fc with received := fc.received + n }

/-- Raise the highest offset of a stream. The first component is the number of
new bytes, which the connection is charged with. -/
def StreamFlowControl.onDataReceived (fc : StreamFlowControl) (offset len : Nat) :
    Nat × StreamFlowControl :=
  if fc.received < offset + len then
    (offset + len - fc.received, { fc with received := offset + len })
  else (0, fc)

def StreamFlowControl.receivedMaxOffset (fc : StreamFlowControl) : Nat := fc.received

@[simp] theorem StreamFlowControl.onDataReceived_received (fc : StreamFlowControl)
    (offset len : Nat) :
    (StreamFlowControl.onDataReceived fc offset len).2.received =
      max fc.received (offset + len) := by
  grind [StreamFlowControl.onDataReceived]

theorem StreamFlowControl.onDataReceived_delta (fc : StreamFlowControl) (offset len : Nat) :
    fc.received + (StreamFlowControl.onDataReceived fc offset len).1 =
      (StreamFlowControl.onDataReceived fc offset len).2.received := by
  grind [StreamFlowControl.onDataReceived]

@[simp] theorem FlowControl.updateSendMax_sent (fc : FlowControl) (newMax : Nat) :
    (fc.updateSendMax newMax).sent = fc.sent := by
  unfold FlowControl.updateSendMax
  split <;> rfl

end Starfish.Quic
