import Starfish.Http.H3.UniStream
import Starfish.Lib.OrdMap

/-!
# Server connections

`H3ServerConnection` with the control stream of the client and server push. What the QUIC
endpoint and the QPACK coder answer is a parameter of each call; the order in which the streams
are visited is that of a hash set, so it is a parameter too.
-/

namespace Starfish.Http.H3.Server

open Quic (Bytes QuicError)

def qpackEncoderStreamType : Nat := 0x02
def qpackDecoderStreamType : Nat := 0x03

inductive PushEvent
  /-- A MAX_PUSH_ID frame was received. -/
  | maxPushId (value : Nat)
  /-- A push was started under an ID. -/
  | started (pushId : Nat)
deriving DecidableEq, Repr

/-- The connection. `history` is not in the source: it records what the statements about server
push speak of. -/
structure H3ServerConnection where
  peerSettings : Option (List H3Setting) := none
  uniStreamStates : OrdMap UniStreamState := OrdMap.empty
  peerControlStreamId : Option Nat := none
  peerQpackEncoderStreamId : Option Nat := none
  peerQpackDecoderStreamId : Option Nat := none
  peerMaxPushId : Nat := 0
  nextLocalPushId : Nat := 0
  history : List PushEvent := []

def registerPeerUniStream (slot : Option Nat) (streamId : Nat) (label : String) :
    Except HttpError (Option Nat) :=
  match slot with
  | some existing =>
    if existing ≠ streamId then
      .error (.parse s!"H3_STREAM_CREATION_ERROR (0x0103): duplicate peer {label} stream" [])
    else .ok slot
  | none => .ok (some streamId)

def idError (message : String) : HttpError := .parse s!"H3_ID_ERROR (0x0108): {message}" []

def settingsError (message : String) : HttpError :=
  .parse s!"H3_SETTINGS_ERROR (0x0109): {message}" []

def updatePeerMaxPushId (current maxPushId : Nat) : Except HttpError Nat :=
  if maxPushId < current then
    .error (idError s!"peer reduced MAX_PUSH_ID from {current} to {maxPushId}")
  else .ok maxPushId

/-- The loop of `validate_settings`. -/
def validateSettings : List H3Setting → List Nat → Except HttpError Unit
  | [], _ => .ok ()
  | setting :: rest, seenIds =>
    if isReservedHttp2SettingId setting.id then
      .error (settingsError s!"reserved HTTP/2 setting id 0x{hex2 setting.id}")
    else if setting.id ∈ seenIds then 
      .error (settingsError s!"duplicate setting id 0x{hex2 setting.id}")
    else validateSettings rest (setting.id :: seenIds)

def pushIdWithinLimit (nextPushId peerMaxPushId : Nat) : Bool := nextPushId ≤ peerMaxPushId

/-- What one `stream_recv` brings, and what the QPACK coder answers if it is called with it. -/
structure Read where
  recv : Except QuicError (Bytes × Bool)
  qpack : Except HttpError Unit := .ok ()

/-- A stream that `poll_control` visits, with its reads; after them nothing is available. -/
structure Visit where
  streamId : Nat
  reads : List Read

/-- The streams that are visited, in their order, and the answer of
`flush_qpack_stream_data`. -/
structure Poll where
  visits : List Visit := []
  flush : Except HttpError Unit := .ok ()

namespace H3ServerConnection

def receiveMaxPushId (conn : H3ServerConnection) (maxPushId : Nat) :
    Outcome HttpError Unit × H3ServerConnection :=
  let conn := { conn with history := conn.history ++ [.maxPushId maxPushId] }
  match updatePeerMaxPushId conn.peerMaxPushId maxPushId with
  | .error e => (.error e, conn)
  | .ok limit => (.ok (), { conn with peerMaxPushId := limit })

def applyPeerSettings (conn : H3ServerConnection) (settings : List H3Setting)
    (qpack : Except HttpError Unit) : Outcome HttpError Unit × H3ServerConnection :=
  match validateSettings settings [] with
  | .error e => (.error e, conn)
  | .ok () =>
    match qpack with
    | .error e => (.error e, conn)
    | .ok () => (.ok (), { conn with peerSettings := some settings })

def processControlFrame (conn : H3ServerConnection) (streamId : Nat)
    (qpack : Except HttpError Unit) : H3Frame → Outcome HttpError Unit × H3ServerConnection
  | .settings list =>
    if conn.peerControlStreamId ≠ some streamId then
      (.error (.parse
        "H3_STREAM_CREATION_ERROR (0x0103): SETTINGS received on non-control stream" []), conn)
    else conn.applyPeerSettings list qpack
  | .maxPushId maxPushId => conn.receiveMaxPushId maxPushId
  | _ => (.ok (), conn)

/-- The loop over the frames that `ingest_control_frames` returned. -/
def processControlFrames (streamId : Nat) (qpack : Except HttpError Unit) :
    H3ServerConnection → List H3Frame → Outcome HttpError Unit × H3ServerConnection
  | conn, [] => (.ok (), conn)
  | conn, frame :: frames =>
    match conn.processControlFrame streamId qpack frame with
    | (.ok (), conn) => processControlFrames streamId qpack conn frames
    | failed => failed

def feedQpack (conn : H3ServerConnection) (st : UniStreamState) (qpack : Except HttpError Unit) :
    Outcome HttpError UniStreamState × H3ServerConnection :=
  if st.pending.isEmpty then (.ok st, conn)
  else
    match qpack with
    | .error e => (.error e, conn)
    | .ok () => (.ok { st with pending := [] }, conn)

def processUniStream (conn : H3ServerConnection) (streamId : Nat) (st : UniStreamState)
    (fin : Bool) (qpack : Except HttpError Unit) :
    Outcome HttpError UniStreamState × H3ServerConnection :=
  match st.streamType with
  | none => (.ok st, conn)
  | some streamType =>
    if streamType = controlStreamType then
      match registerPeerUniStream conn.peerControlStreamId streamId "control" with
      | .error e => (.error e, conn)
      | .ok slot =>
        let conn := { conn with peerControlStreamId := slot }
        match UniStreamState.ingestControlFrames st fin with
        | .panic => (.panic, conn)
        | .error e => (.error e, conn)
        | .ok (st, frames) =>
          match processControlFrames streamId qpack conn frames with
          | (.ok (), conn) => (.ok st, conn)
          | (.error e, conn) => (.error e, conn)
          | (.panic, conn) => (.panic, conn)
    else if streamType = qpackEncoderStreamType then
      match registerPeerUniStream conn.peerQpackEncoderStreamId streamId "QPACK encoder" with
      | .error e => (.error e, conn)
      | .ok slot => ({ conn with peerQpackEncoderStreamId := slot }).feedQpack st qpack
    else if streamType = qpackDecoderStreamType then
      match registerPeerUniStream conn.peerQpackDecoderStreamId streamId "QPACK decoder" with
      | .error e => (.error e, conn)
      | .ok slot => ({ conn with peerQpackDecoderStreamId := slot }).feedQpack st qpack
    else (.ok { st with pending := [] }, conn)

def isPeerCriticalStream (conn : H3ServerConnection) (streamId : Nat) : Bool :=
  conn.peerControlStreamId == some streamId || conn.peerQpackEncoderStreamId == some streamId ||
    conn.peerQpackDecoderStreamId == some streamId

def criticalStreamLabel (conn : H3ServerConnection) (streamId : Nat) : String :=
  if conn.peerControlStreamId = some streamId then "control"
  else if conn.peerQpackEncoderStreamId = some streamId then "QPACK encoder"
  else if conn.peerQpackDecoderStreamId = some streamId then "QPACK decoder"
  else "critical"

def readStream (streamId : Nat) : H3ServerConnection → UniStreamState → List Read →
    Outcome HttpError (Bool × UniStreamState) × H3ServerConnection
  | conn, st, [] =>
    match UniStreamState.ingest st [] false with
    | .panic => (.panic, conn)
    | .error e => (.error e, conn)
    | .ok st =>
      match conn.processUniStream streamId st false (.ok ()) with
      | (.ok st, conn) => (.ok (false, st), conn)
      | (.error e, conn) => (.error e, conn)
      | (.panic, conn) => (.panic, conn)
  | conn, st, read :: reads =>
    match read.recv with
    | .error e => (.error (.quic e), conn)
    | .ok (chunk, fin) =>
      match UniStreamState.ingest st chunk fin with
      | .panic => (.panic, conn)
      | .error e => (.error e, conn)
      | .ok st =>
        match conn.processUniStream streamId st fin read.qpack with
        | (.ok st, conn) =>
          if fin || chunk.isEmpty then (.ok (fin, st), conn)
          else readStream streamId conn st reads
        | (.error e, conn) => (.error e, conn)
        | (.panic, conn) => (.panic, conn)

/-- One stream of `poll_control`. -/
def visit (conn : H3ServerConnection) (v : Visit) :
    Outcome HttpError Unit × H3ServerConnection :=
  let st := (conn.uniStreamStates.find? v.streamId).getD {}
  let conn := { conn with uniStreamStates := conn.uniStreamStates.erase v.streamId }
  match readStream v.streamId conn st v.reads with
  | (.panic, conn) => (.panic, conn)
  | (.error e, conn) => (.error e, conn)
  | (.ok (finished, st), conn) =>
    if finished && conn.isPeerCriticalStream v.streamId then
      (.error (.parse
        s!"H3_CLOSED_CRITICAL_STREAM (0x0104): peer closed {conn.criticalStreamLabel v.streamId} stream" []), conn)
    else if finished then (.ok (), conn)
    else (.ok (), { conn with uniStreamStates := conn.uniStreamStates.insert v.streamId st })

def visitAll : H3ServerConnection → List Visit → Outcome HttpError Unit × H3ServerConnection
  | conn, [] => (.ok (), conn)
  | conn, v :: visits =>
    match conn.visit v with
    | (.ok (), conn) => visitAll conn visits
    | failed => failed

def pollControl (conn : H3ServerConnection) (poll : Poll) :
    Outcome HttpError Unit × H3ServerConnection :=
  match conn.visitAll poll.visits with
  | (.ok (), conn) => (Outcome.ofExcept poll.flush, conn)
  | failed => failed

def startPush (conn : H3ServerConnection) : H3ServerConnection :=
  { conn with
    nextLocalPushId := conn.nextLocalPushId + 1
    history := conn.history ++ [.started conn.nextLocalPushId] }

/-- What a call of `send_push` meets: the answer of `open_control_stream`, the two polls, and
the answers of everything that encodes and sends the promise and the pushed response. -/
structure PushCall where
  opened : Except HttpError Unit := .ok ()
  before : Poll := {}
  sent : Except HttpError Unit := .ok ()
  after : Poll := {}

def sendPush (conn : H3ServerConnection) (call : PushCall) :
    Outcome HttpError Nat × H3ServerConnection :=
  match call.opened with
  | .error e => (.error e, conn)
  | .ok () =>
    match conn.pollControl call.before with
    | (.panic, conn) => (.panic, conn)
    | (.error e, conn) => (.error e, conn)
    | (.ok (), conn) =>
      if !pushIdWithinLimit conn.nextLocalPushId conn.peerMaxPushId then
        (.error (.parse "peer did not permit another server push" []), conn)
      else
        let pushId := conn.nextLocalPushId
        let conn := conn.startPush
        match call.sent with
        | .error e => (.error e, conn)
        | .ok () =>
          match conn.pollControl call.after with
          | (.panic, conn) => (.panic, conn)
          | (.error e, conn) => (.error e, conn)
          | (.ok (), conn) => (.ok pushId, conn)

end H3ServerConnection

/-- Calls on a connection: `poll_control` inside any other call, and `send_push`. -/
inductive Call
  | poll (poll : Poll)
  | push (call : H3ServerConnection.PushCall)

def H3ServerConnection.exec (conn : H3ServerConnection) : Call → H3ServerConnection
  | .poll poll => (conn.pollControl poll).2
  | .push call => (conn.sendPush call).2

def H3ServerConnection.run (conn : H3ServerConnection) (calls : List Call) : H3ServerConnection :=
  calls.foldl exec conn

end Starfish.Http.H3.Server
