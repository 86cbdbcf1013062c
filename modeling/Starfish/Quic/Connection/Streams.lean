import Starfish.Quic.Connection.RecvBuffer
import Starfish.Quic.Transport.StreamManager

/-!
# The streams of a connection

The part of a connection that stream data passes through: the stream table, the
connection's flow control and the queue of frames to send. Frames of the peer and
calls of the application are the events of a state machine. A frame that is
refused ends the connection; a call that is refused does not.
-/

namespace Starfish.Quic

inductive ConnectionState
  | initial
  | handshake
  | connected
  | closing
  | draining
  | closed
deriving DecidableEq, Repr

def ConnectionState.debug : ConnectionState → String
  | .initial => "Initial"
  | .handshake => "Handshake"
  | .connected => "Connected"
  | .closing => "Closing"
  | .draining => "Draining"
  | .closed => "Closed"

/-- The protection of application data that can be sent now. -/
inductive ApplicationPacketKind
  | zeroRtt
  | oneRtt
deriving DecidableEq, Repr

structure PeerLimits where
  initialMaxData : Nat
  initialMaxStreamDataBidiLocal : Nat
  initialMaxStreamDataBidiRemote : Nat
  initialMaxStreamDataUni : Nat
  initialMaxStreamsBidi : Nat
  initialMaxStreamsUni : Nat
deriving DecidableEq, Repr

/-! ## Receiving on one stream -/

def validateStreamFinalSize (sid : Nat) (st : StreamState) (finalSize : Nat) :
    Except QuicError Unit :=
  if st.finalSize.any (· != finalSize) then
    .error (.transport .finalSizeError
      s!"stream {sid} changed final size from {st.finalSize.getD 0} to {finalSize}")
  else if finalSize < StreamFlowControl.receivedMaxOffset st.flowControl then
    .error (.transport .finalSizeError
      s!"stream {sid} final size {finalSize} is smaller than received data")
  else .ok ()

def segmentsReach (finalSize : Nat) : Nat → List (Segment UInt8) → Bool
  | _, [] => false
  | coveredUntil, (start, data) :: rest =>
    let stop := start + data.length
    if stop ≤ coveredUntil then segmentsReach finalSize coveredUntil rest
    else if coveredUntil < start then false
    else if finalSize ≤ stop then true
    else segmentsReach finalSize stop rest

def streamHasReceivedAllData (st : StreamState) : Bool :=
  match st.finalSize with
  | none => false
  | some finalSize =>
    if finalSize ≤ st.recvOffset then true
    else segmentsReach finalSize st.recvOffset st.recvBuf.entries

def fixFinalSize (st : StreamState) (stop : Nat) : StreamState :=
  { st with
    finalSize := some stop
    recv := if st.recv = some .recv then some .sizeKnown else st.recv }

/-- The receive part is complete once everything up to the final size is there. -/
def markReceived (st : StreamState) : StreamState :=
  if st.recv = some .sizeKnown && streamHasReceivedAllData st then
    { st with recv := some .dataRecvd }
  else st

def receiveStreamFrame (st : StreamState) (conn : ConnectionFlowControl) (frame : StreamFrame) :
    Except QuicError Unit × StreamState × ConnectionFlowControl :=
  let sid := frame.streamId
  if st.recv.isNone then
    (.error (.transport .streamStateError s!"stream {sid} is send-only"), st, conn)
  else match checkedAdd frame.offset frame.data.length with
  | none =>
    (.error (.transport .finalSizeError s!"stream {sid} final size overflow"), st, conn)
  | some stop =>
    if st.finalSize.any (· < stop) then
      (.error (.transport .finalSizeError
        s!"stream {sid} received data beyond final size {st.finalSize.getD 0}"), st, conn)
    else
      let charge := StreamFlowControl.onDataReceived st.flowControl frame.offset
        frame.data.length
      let st := { st with flowControl := charge.2 }
      let conn := ConnectionFlowControl.onDataReceived conn charge.1
      if !st.flowControl.checkRecvLimit then
        (.error (.transport .flowControlError
          s!"stream {sid} exceeded stream-level flow control"), st, conn)
      else if !conn.checkRecvLimit then
        (.error (.transport .flowControlError "connection-level flow control exceeded"), st, conn)
      else
        let st := if frame.data.isEmpty then st
          else { st with recvBuf := bufferStreamRecvData st.recvBuf frame.offset frame.data }
        match (if frame.fin then validateStreamFinalSize sid st stop else .ok ()) with
        | .error e => (.error e, st, conn)
        | .ok () =>
          let st := if frame.fin then fixFinalSize st stop else st
          (.ok (), markReceived st, conn)

def receiveResetStream (st : StreamState) (sid applicationErrorCode finalSize : Nat) :
    Except QuicError Unit × StreamState :=
  if st.recv.isNone then
    (.error (.transport .streamStateError s!"stream {sid} is send-only"), st)
  else match validateStreamFinalSize sid st finalSize with
  | .error e => (.error e, st)
  | .ok () =>
    (.ok (), { st with
      finalSize := some finalSize
      resetErrorCode := some applicationErrorCode
      recvBuf := OrdMap.empty
      recv := some .resetRecvd })

/-- Take segments off the buffer while there is room and one starts at `recvOffset`. -/
def readLoop : Nat → Nat → OrdMap Bytes → Nat → Bytes × OrdMap Bytes × Nat
  | 0, _, recvBuf, recvOffset => ([], recvBuf, recvOffset)
  | fuel + 1, room, recvBuf, recvOffset =>
    if room = 0 then ([], recvBuf, recvOffset)
    else match recvBuf.find? recvOffset with
    | none => ([], recvBuf, recvOffset)
    | some data =>
      let copyLen := min data.length room
      let recvBuf := recvBuf.erase recvOffset
      let recvOffset := recvOffset + copyLen
      let recvBuf := if copyLen < data.length then
        bufferStreamRecvData recvBuf recvOffset (data.drop copyLen) else recvBuf
      let rest := readLoop fuel (room - copyLen) recvBuf recvOffset
      (data.take copyLen ++ rest.1, rest.2)

/-- Every turn of the loop but the last removes a segment. -/
def readFuel (recvBuf : OrdMap Bytes) : Nat := recvBuf.entries.length + 1

/-- Read up to `bufLen` bytes; the flag tells whether the end has been reached. -/
def receiveRead (st : StreamState) (sid bufLen : Nat) :
    Except QuicError (Bytes × Bool) × StreamState :=
  if st.recv.isNone then
    (.error (.transport .streamStateError s!"stream {sid} is send-only"), st)
  else if st.recv = some .resetRecvd then
    (.error (.streamReset (st.resetErrorCode.getD 0)), { st with recv := some .resetRead })
  else
    let read := readLoop (readFuel st.recvBuf) bufLen st.recvBuf st.recvOffset
    let st := { st with recvBuf := read.2.1, recvOffset := read.2.2 }
    if st.finalSize.any (· ≤ st.recvOffset) then
      let recv := if st.recv = some .sizeKnown then some .dataRecvd else st.recv
      let recv := if recv = some .dataRecvd then some .dataRead else recv
      (.ok (read.1, true), { st with recv := recv })
    else (.ok (read.1, false), st)

/-! ## The stream part of a connection -/

/-- Stream table, connection flow control and the queue of frames to send. -/
structure Transport where
  streams : StreamManager
  flowControl : ConnectionFlowControl
  pendingFrames : List (PacketNumberSpace × Frame)
deriving DecidableEq

namespace Transport

def new (side : Side) (maxBidi maxUni initialMaxStreamData initialMaxData : Nat) : Transport where
  streams := StreamManager.new side maxBidi maxUni initialMaxStreamData
  flowControl := FlowControl.new initialMaxData initialMaxData
  pendingFrames := []

/-- Append to the queue of the application data space. -/
def pushBack (t : Transport) (frame : Frame) : Transport :=
  { t with pendingFrames := t.pendingFrames ++ [(.applicationData, frame)] }

def setStream (t : Transport) (sid : Nat) (st : StreamState) : Transport :=
  { t with streams := t.streams.set sid st }

def acceptNamed (t : Transport) (sid : Nat) : Except QuicError Transport :=
  if (t.streams.get sid).isNone then
    match t.streams.acceptStream sid with
    | .error e => .error e
    | .ok streams => .ok { t with streams := streams }
  else .ok t

def processStream (t : Transport) (frame : StreamFrame) : Except QuicError Unit × Transport :=
  match t.acceptNamed frame.streamId with
  | .error e => (.error e, t)
  | .ok t =>
    match t.streams.get frame.streamId with
    | none => (.ok (), t)
    | some st =>
      let received := receiveStreamFrame st t.flowControl frame
      (received.1, { t.setStream frame.streamId received.2.1 with
        flowControl := received.2.2 })

def processResetStream (t : Transport) (sid applicationErrorCode finalSize : Nat) :
    Except QuicError Unit × Transport :=
  match t.acceptNamed sid with
  | .error e => (.error e, t)
  | .ok t =>
    match t.streams.get sid with
    | none => (.ok (), t)
    | some st =>
      let received := receiveResetStream st sid applicationErrorCode finalSize
      (received.1, t.setStream sid received.2)

def processStopSending (t : Transport) (sid applicationErrorCode : Nat) :
    Except QuicError Unit × Transport :=
  match t.acceptNamed sid with
  | .error e => (.error e, t)
  | .ok t =>
    match t.streams.get sid with
    | none => (.error (.transport .streamStateError s!"unknown stream {sid}"), t)
    | some st =>
      if st.send.isNone then
        (.error (.transport .streamStateError s!"stream {sid} is receive-only"), t)
      else
        (.ok (), (t.setStream sid { st with send := some .resetSent }).pushBack
          (.resetStream sid applicationErrorCode st.sendOffset))

def maxStreamsLimit : Nat := 2 ^ 60

/-- The frames that act on streams and flow control. The others belong to other
parts of the connection. -/
def processFrame (t : Transport) : Frame → Except QuicError Unit × Transport
  | .stream frame => t.processStream frame
  | .resetStream sid code finalSize => t.processResetStream sid code finalSize
  | .stopSending sid code => t.processStopSending sid code
  | .maxData maximumData =>
    (.ok (), { t with flowControl := t.flowControl.updateSendMax maximumData })
  | .maxStreamData sid maximumStreamData =>
    match t.streams.get sid with
    | none => (.ok (), t)
    | some st => (.ok (), t.setStream sid
        { st with flowControl := st.flowControl.updateSendMax maximumStreamData })
  | .maxStreams bidirectional maximumStreams =>
    if maxStreamsLimit < maximumStreams then
      (.error (.transport .frameEncodingError
        s!"MAX_STREAMS exceeds protocol limit: {maximumStreams}"), t)
    else if bidirectional then
      (.ok (), { t with streams := t.streams.updateMaxBidiStreams maximumStreams })
    else (.ok (), { t with streams := t.streams.updateMaxUniStreams maximumStreams })
  | .dataBlocked maximumData =>
    let updated := t.flowControl.updateFromBlocked maximumData
    let t := { t with flowControl := updated.2 }
    match updated.1 with
    | none => (.ok (), t)
    | some newMax => (.ok (), t.pushBack (.maxData newMax))
  | .streamDataBlocked sid maximumStreamData =>
    match t.streams.get sid with
    | none => (.ok (), t)
    | some st =>
      if st.recv.isNone then (.ok (), t)
      else
        let updated := st.flowControl.updateFromBlocked maximumStreamData
        let t := t.setStream sid { st with flowControl := updated.2 }
        match updated.1 with
        | none => (.ok (), t)
        | some newMax => (.ok (), t.pushBack (.maxStreamData sid newMax))
  | .streamsBlocked bidirectional maximumStreams =>
    let currentLimit := t.streams.localMaxStreams bidirectional
    if maximumStreams < currentLimit then
      (.ok (), t.pushBack (.maxStreams bidirectional currentLimit))
    else (.ok (), t)
  | _ => (.ok (), t)

def acknowledged (st : StreamState) (frame : StreamFrame) : StreamState :=
  let st := st.acknowledgeSentData frame.offset frame.data.length frame.fin
  if st.send = some .dataSent && st.allSentDataAcked then { st with send := some .dataRecvd }
  else st

def acknowledgeStreamFrame (t : Transport) (frame : StreamFrame) : Transport :=
  match t.streams.get frame.streamId with
  | none => t
  | some st => t.setStream frame.streamId (acknowledged st frame)

def applyPeerLimits (t : Transport) (limits : PeerLimits) : Transport :=
  { t with
    flowControl := t.flowControl.setSendMax limits.initialMaxData
    streams := t.streams.applyPeerInitialLimits limits.initialMaxStreamDataBidiLocal
      limits.initialMaxStreamDataBidiRemote limits.initialMaxStreamDataUni
      limits.initialMaxStreamsBidi limits.initialMaxStreamsUni }

def streamRecv (t : Transport) (sid bufLen : Nat) : Except QuicError (Bytes × Bool) × Transport :=
  match t.streams.get sid with
  | none => (.error (.transport .streamStateError s!"unknown stream {sid}"), t)
  | some st =>
    let read := receiveRead st sid bufLen
    (read.1, t.setStream sid read.2)

def sendable (state : ConnectionState) (kind : Option ApplicationPacketKind) : Bool :=
  match kind with
  | some .zeroRtt => true
  | some .oneRtt => state == .connected
  | none => false

def writeLen (t : Transport) (st : StreamState) (data : Bytes) : Nat :=
  min data.length (min st.flowControl.sendWindow t.flowControl.sendWindow)

def written (st : StreamState) (len : Nat) (actualFin : Bool) : StreamState :=
  let send := if st.send = some .ready then some .send else st.send
  { st with
    sendOffset := st.sendOffset + len
    flowControl := st.flowControl.onDataSent len
    send := if actualFin then some .dataSent else send
    finSent := st.finSent || actualFin }

/-- Write to a stream. The connection's state and the protection that is
available are those of the caller. -/
def streamSend (t : Transport) (state : ConnectionState) (kind : Option ApplicationPacketKind)
    (sid : Nat) (data : Bytes) (fin : Bool) : Except QuicError Nat × Transport :=
  if !sendable state kind then
    (.error (.transport .streamStateError
      s!"application data is not sendable while connection state is {state.debug}"), t)
  else match t.streams.get sid with
  | none => (.error (.transport .streamStateError s!"unknown stream {sid}"), t)
  | some st =>
    if st.send.isNone then
      (.error (.transport .streamStateError s!"stream {sid} is receive-only"), t)
    else if st.send = some .resetSent || st.send = some .resetRecvd
        || st.send = some .dataRecvd then
      (.error (.transport .streamStateError s!"stream {sid} send side is closed"), t)
    else
      let len := t.writeLen st data
      -- a short write leaves FIN to a later call
      let actualFin := fin && len == data.length
      if 0 < len || actualFin then
        (.ok len, { t.setStream sid (written st len actualFin) with
          flowControl := t.flowControl.onDataSent len
          pendingFrames := t.pendingFrames ++
            [(.applicationData, .stream ⟨sid, st.sendOffset, actualFin, data.take len⟩)] })
      else (.ok len, t)

def extendStream (t : Transport) (sid : Nat) : Transport :=
  match t.streams.get sid with
  | none => t
  | some st =>
    if st.recv.isNone then t
    else match st.flowControl.shouldSendMax with
    | none => t
    | some newMax =>
      (t.setStream sid { st with flowControl := st.flowControl.commitMax newMax }).pushBack
        (.maxStreamData sid newMax)

def generateFlowControlUpdates (t : Transport) : Transport :=
  let t := match t.flowControl.shouldSendMax with
    | none => t
    | some newMax =>
      { t with flowControl := t.flowControl.commitMax newMax }.pushBack (.maxData newMax)
  t.streams.streams.keys.foldl extendStream t

def generateStreamLimitUpdates (t : Transport) : Transport :=
  let updates := t.streams.takeMaxStreamsUpdates
  let t := { t with streams := updates.2 }
  let t := match updates.1.1 with
    | none => t
    | some n => t.pushBack (.maxStreams true n)
  match updates.1.2 with
  | none => t
  | some n => t.pushBack (.maxStreams false n)

end Transport

/-- What can happen to the streams of a connection. -/
inductive TransportEvent
  | frame (frame : Frame)
  | acknowledged (frame : StreamFrame)
  | peerLimits (limits : PeerLimits)
  | openBidi
  | openUni
  | send (state : ConnectionState) (kind : Option ApplicationPacketKind) (sid : Nat)
      (data : Bytes) (fin : Bool)
  | recv (sid bufLen : Nat)
  | flowControlUpdates
  | streamLimitUpdates
deriving DecidableEq

/-- What the caller of an event is told. -/
inductive TransportResponse
  | done
  | opened (sid : Nat)
  | sent (len : Nat)
  | received (data : Bytes) (fin : Bool)
  | refused (error : QuicError)
deriving DecidableEq

/-- One event. A refused frame closes the connection, so the machine stops. -/
def Transport.step (t : Transport) : TransportEvent → Option (TransportResponse × Transport)
  | .frame frame =>
    match t.processFrame frame with
    | (.ok (), t) => some (.done, t)
    | (.error _, _) => none
  | .acknowledged frame => some (.done, t.acknowledgeStreamFrame frame)
  | .peerLimits limits => some (.done, t.applyPeerLimits limits)
  | .openBidi =>
    match t.streams.openBidi with
    | .ok (sid, streams) => some (.opened sid, { t with streams := streams })
    | .error e => some (.refused e, t)
  | .openUni =>
    match t.streams.openUni with
    | .ok (sid, streams) => some (.opened sid, { t with streams := streams })
    | .error e => some (.refused e, t)
  | .send state kind sid data fin =>
    match t.streamSend state kind sid data fin with
    | (.ok len, t) => some (.sent len, t)
    | (.error e, t) => some (.refused e, t)
  | .recv sid bufLen =>
    match t.streamRecv sid bufLen with
    | (.ok (data, fin), t) => some (.received data fin, t)
    | (.error e, t) => some (.refused e, t)
  | .flowControlUpdates => some (.done, t.generateFlowControlUpdates)
  | .streamLimitUpdates => some (.done, t.generateStreamLimitUpdates)

theorem Transport.step_open {t t' : Transport} {e : TransportEvent} {r : TransportResponse}
    (he : e = .openBidi ∨ e = .openUni) (h : t.step e = some (r, t')) :
    (∃ direction id m, t.streams.OpensLocal direction id m ∧ r = .opened id ∧
      t' = { t with streams := m }) ∨ t' = t ∧ ∃ error, r = .refused error := by
  rcases he with rfl | rfl <;> simp only [step] at h <;> split at h
  · next hopen =>
    cases h
    exact .inl ⟨_, _, _, StreamManager.openBidi_opensLocal hopen, rfl, rfl⟩
  · cases h
    exact .inr ⟨rfl, _, rfl⟩
  · next hopen =>
    cases h
    exact .inl ⟨_, _, _, StreamManager.openUni_opensLocal hopen, rfl, rfl⟩
  · cases h
    exact .inr ⟨rfl, _, rfl⟩

end Starfish.Quic
