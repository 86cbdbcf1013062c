import Starfish.Quic.FrameDecode
import Starfish.Quic.Connection.CryptoRecv
import Starfish.Quic.Connection.Receive
import Starfish.Quic.Connection.SendLoop

/-!
# Closing a connection

Every place that assigns the state of a connection: the frames CONNECTION_CLOSE and
HANDSHAKE_DONE, key installation, stateless resets, the close call and the timers, with
the entry points that lead there. Work that leaves the state alone is a parameter. A
history variable records each assignment, so that the states a connection goes through
within one call can be told.
-/

namespace Starfish.Quic

inductive Assigner
  | enterDraining
  | handshakeDone
  | installKeys (change : KeyChange)
  | beginLocalClose
  | idleTimeout
  | closeTimeout
deriving DecidableEq, Repr

/-- The connection takes no part in the exchange of data any more. -/
def ConnectionState.hasEnded : ConnectionState → Bool
  | .closing | .draining | .closed => true
  | _ => false

/-- The TLS session of a connection. -/
structure Handshaker (τ : Type) where
  readHs : τ → Bytes → Except QuicError τ
  /-- The key changes that are reported until there is nothing more to write. -/
  writeHs : τ → List KeyChange × τ
  applyPeerTransportParameters : τ → Except QuicError Unit × τ

namespace Handshaker

variable {τ : Type} (T : Handshaker τ)

def output (x : τ × List KeyChange) : Except QuicError Unit × τ × List KeyChange :=
  let written := T.writeHs x.1
  let applied := T.applyPeerTransportParameters written.2
  (applied.1, applied.2, x.2 ++ written.1)

def engine : TlsEngine (τ × List KeyChange) where
  readHs x data := (T.readHs x.1 data).map fun tls => (tls, x.2)
  finish x _ :=
    match T.applyPeerTransportParameters x.1 with
    | (.error e, tls) => (.error e, tls, x.2)
    | (.ok (), tls) => T.output (tls, x.2)

end Handshaker

/-- What the close handling reads and writes beside the state. -/
structure Life (τ σ : Type) where
  endpointManaged : Bool
  incomingDatagrams : List Bytes := []
  drainingUntil : Option Nat := none
  closingFrames : List (PacketNumberSpace × Frame) := []
  closingResponsePending : Bool := false
  idleTimeout : Nat
  idleTimeoutStart : Nat
  /-- CRYPTO streams and TLS, with the key changes that are about to be installed. -/
  crypto : CryptoState (τ × List KeyChange)
  other : σ
  /-- The assignments of the state and what each of them assigned. Nothing reads it. -/
  history : List (Assigner × ConnectionState) := []

inductive Work (α : Type)
  | receivedPacket (packet : OpenedPacket) (frames : List Frame) (ecn : Option UdpEcnCodepoint)
  | frame (packet : OpenedPacket) (addr : α) (frame : Frame)
  | handshakeDone
  | packetDone (packet : OpenedPacket) (addr : α)
  | tlsOutput
  | clearPending
  | sendPending
  | timers (now : Nat)
  | gcClosedStreams

/-- What the close handling uses of the rest of the program. -/
structure LifeEnv (α τ σ : Type) where
  tls : Handshaker τ
  perform : Work α → Receiver α (Life τ σ) → Except QuicError Unit × Receiver α (Life τ σ)
  sendConnectionCloseFrames : List (PacketNumberSpace × Frame) → Receiver α (Life τ σ) →
    Except QuicError Bool × Receiver α (Life τ σ)
  now : Life τ σ → Nat
  ptoTimeout : σ → Nat
  afterRetry : σ → σ
  challenge : Life τ σ → Bytes
  frameDebug : Frame → String

def andThen {σ : Type} (r : Except QuicError Unit × σ) (f : σ → Except QuicError Unit × σ) :
    Except QuicError Unit × σ :=
  match r with
  | (.error e, s) => (.error e, s)
  | (.ok (), s) => f s

inductive SocketInput (α : Type)
  | datagram (data : Bytes) (addr : α) (ecn : Option UdpEcnCodepoint)
  | wouldBlock (message : String)
  /-- `early`: no internal deadline has passed. -/
  | timedOut (message : String) (early : Bool)
  | failed (message : String)

namespace Receiver

variable {α τ σ : Type}

/-- Take over what some work did to other parts of the connection. -/
def adopt (s t : Receiver α (Life τ σ)) : Receiver α (Life τ σ) :=
  { t with
    keys := { t.keys with state := s.keys.state, side := s.keys.side }
    rest := { s.rest with
      idleTimeoutStart := t.rest.idleTimeoutStart
      other := t.rest.other } }

def note (s : Receiver α (Life τ σ)) (assigner : Assigner) : Receiver α (Life τ σ) :=
  { s with rest := { s.rest with history := s.rest.history ++ [(assigner, s.keys.state)] } }

def assign (s : Receiver α (Life τ σ)) (assigner : Assigner) (state : ConnectionState) :
    Receiver α (Life τ σ) :=
  { s with keys := { s.keys with state := state } }.note assigner

variable (E : LifeEnv α τ σ)

def perform (work : Work α) (s : Receiver α (Life τ σ)) :
    Except QuicError Unit × Receiver α (Life τ σ) :=
  ((E.perform work s).1, s.adopt (E.perform work s).2)

/-! ## The peer closes -/

def drainLife (life : Life τ σ) : Life τ σ :=
  { life with
    drainingUntil := some (E.now life + E.ptoTimeout life.other * 3)
    closingFrames := []
    closingResponsePending := false
    history := life.history ++ [(.enterDraining, .draining)] }

def enterDrainingNow (s : Receiver α (Life τ σ)) : Receiver α (Life τ σ) :=
  if s.keys.state = .closed then s
  else { s with keys := { s.keys with state := .draining }, rest := drainLife E s.rest }

/-! ## Key installation -/

def installKeys (s : Receiver α (Life τ σ)) (change : KeyChange) : Receiver α (Life τ σ) :=
  { s with keys := s.keys.installKeys change }.note (.installKeys change)

def setCrypto (s : Receiver α (Life τ σ)) (crypto : CryptoState (τ × List KeyChange)) :
    Receiver α (Life τ σ) :=
  { s with rest := { s.rest with crypto := crypto } }

def installReported (s : Receiver α (Life τ σ)) : Receiver α (Life τ σ) :=
  s.rest.crypto.tls.2.foldl installKeys
    (s.setCrypto { s.rest.crypto with tls := (s.rest.crypto.tls.1, []) })

def processTlsOutput (s : Receiver α (Life τ σ)) : Except QuicError Unit × Receiver α (Life τ σ) :=
  let written := E.tls.output s.rest.crypto.tls
  let s := (s.setCrypto { s.rest.crypto with tls := written.2 }).installReported
  (written.1, (s.perform E .tlsOutput).2)

def processCrypto (s : Receiver α (Life τ σ)) (space : PacketNumberSpace) (frame : CryptoFrame) :
    Except QuicError Unit × Receiver α (Life τ σ) :=
  let processed := processCryptoData E.tls.engine s.rest.crypto space frame.offset frame.data
  let s := ((s.setCrypto processed.2.1).installReported.perform E .tlsOutput).2
  match processed.1 with
  | .ok => (.ok (), s)
  | .failed e => (.error e, s)
  | .tlsFailed e => (.error e, s)

/-! ## Packets and datagrams -/

def processFrameFrom (packet : OpenedPacket) (addr : α) (s : Receiver α (Life τ σ))
    (frame : Frame) : Except QuicError Unit × Receiver α (Life τ σ) :=
  if packet.kind = .zeroRtt ∧ frameAllowedInZeroRtt frame = false then
    (.error (.transport .protocolViolation
      ("frame " ++ E.frameDebug frame ++ " is not permitted in 0-RTT packets")), s)
  else
    match frame with
    | .crypto crypto => s.processCrypto E packet.space crypto
    | .connectionClose _ _ _ _ => (.ok (), s.enterDrainingNow E)
    | .handshakeDone =>
      if s.keys.side = .client then
        (.ok (), ((s.assign .handshakeDone .connected).perform E .handshakeDone).2)
      else (.ok (), s)
    | _ => s.perform E (.frame packet addr frame)

def processFrames (packet : OpenedPacket) (addr : α) :
    Receiver α (Life τ σ) → List Frame → Except QuicError Unit × Receiver α (Life τ σ)
  | s, [] => (.ok (), s)
  | s, frame :: frames =>
    andThen (processFrameFrom E packet addr s frame) fun s => processFrames packet addr s frames

def processOpened (s : Receiver α (Life τ σ)) (packet : OpenedPacket) (addr : α)
    (ecn : Option UdpEcnCodepoint) : Except QuicError Unit × Receiver α (Life τ σ) :=
  match decodeFrames packet.plaintext with
  | some (.ok frames) =>
    andThen
      (processFrames E packet addr (s.perform E (.receivedPacket packet frames ecn)).2 frames)
      fun s => (.ok (), (s.perform E (.packetDone packet addr)).2)
  | some (.error e) => (.error e, s)
  -- By `decodeFrames_total` no payload that fits into memory comes here.
  | _ => (.ok (), s)

end Receiver

def LifeEnv.receive {α τ σ : Type} (E : LifeEnv α τ σ) : ReceiveEnv α (Life τ σ) where
  processOpened := Receiver.processOpened E
  afterRetry life := { life with other := E.afterRetry life.other }
  drain := Receiver.drainLife E
  challenge := E.challenge

namespace Receiver

variable {α τ σ : Type} [DecidableEq α] (P : PacketProtection) (R : RetryIntegrity)
  (E : LifeEnv α τ σ)

def processDatagram (s : Receiver α (Life τ σ)) (data : Bytes) (addr : α)
    (ecn : Option UdpEcnCodepoint) : Except QuicError Unit × Receiver α (Life τ σ) :=
  s.processDatagramFromWithEcn P R E.receive data addr ecn

def setIncoming (s : Receiver α (Life τ σ)) (datagrams : List Bytes) : Receiver α (Life τ σ) :=
  { s with rest := { s.rest with incomingDatagrams := datagrams } }

def processQueued : List Bytes → Receiver α (Life τ σ) →
    Except QuicError Unit × Receiver α (Life τ σ)
  | [], s => (.ok (), s)
  | data :: queue, s =>
    andThen ((s.setIncoming queue).processDatagram P R E data s.paths.peerAddr none)
      (processQueued queue)

/-! ## Timers -/

def idleTimeoutActive (s : Receiver α (Life τ σ)) : Bool :=
  decide (s.rest.idleTimeout ≠ 0) && !s.keys.state.hasEnded

def idleDeadline (s : Receiver α (Life τ σ)) : Option Nat :=
  if s.idleTimeoutActive then some (s.rest.idleTimeoutStart + s.rest.idleTimeout) else none

def closeDeadline (s : Receiver α (Life τ σ)) : Option Nat :=
  match s.keys.state with
  | .closing | .draining => s.rest.drainingUntil
  | _ => none

def hasPassed (deadline : Option Nat) (now : Nat) : Bool := deadline.any fun d => decide (d ≤ now)

def becomeClosed (s : Receiver α (Life τ σ)) (assigner : Assigner) : Receiver α (Life τ σ) :=
  { s with
    rest := { s.rest with
      drainingUntil := none
      closingFrames := []
      closingResponsePending := false } }.assign assigner .closed

def handleInternalTimers (s : Receiver α (Life τ σ)) (now : Nat) : Receiver α (Life τ σ) :=
  if hasPassed s.idleDeadline now then s.becomeClosed .idleTimeout
  else if hasPassed s.closeDeadline now then s.becomeClosed .closeTimeout
  else if s.keys.state.hasEnded then s
  else (s.perform E (.timers now)).2

/-! ## Calls -/

def setClosingResponse (s : Receiver α (Life τ σ)) (pending : Bool) : Receiver α (Life τ σ) :=
  { s with rest := { s.rest with closingResponsePending := pending } }

def flushPendingConnectionClose (s : Receiver α (Life τ σ)) :
    Except QuicError Unit × Receiver α (Life τ σ) :=
  if s.keys.state = .closing ∧ s.rest.closingResponsePending = true then
    match E.sendConnectionCloseFrames s.rest.closingFrames s with
    | (.error e, t) => (.error e, s.adopt t)
    | (.ok sentAll, t) => (.ok (), (s.adopt t).setClosingResponse !sentAll)
  else (.ok (), s)

def localCloseFrames (s : Receiver α (Life τ σ)) (errorCode : Nat) (reason : Bytes) :
    List (PacketNumberSpace × Frame) :=
  let transportClose := Frame.connectionClose true 0x0c (some 0) []
  let applicationClose := Frame.connectionClose false errorCode none reason
  let ifKeys (space : PacketNumberSpace) :=
    if (s.keys.keys.get space).isSome then [(space, transportClose)] else []
  if s.keys.keys.oneRtt.isSome then
    ifKeys .handshake ++ [(.applicationData, applicationClose)]
  else if s.keys.canSendZeroRtt then
    ifKeys .initial ++ [(.applicationData, applicationClose)]
  else if (s.keys.keys.get .handshake).isSome then ifKeys .handshake
  else ifKeys .initial

def beginLocalClose (s : Receiver α (Life τ σ)) (frames : List (PacketNumberSpace × Frame))
    (now : Nat) : Receiver α (Life τ σ) :=
  let s := { s with
    rest := { s.rest with
      drainingUntil := some (now + E.ptoTimeout s.rest.other * 3)
      closingFrames := frames
      closingResponsePending := false } }.assign .beginLocalClose .closing
  (s.perform E .clearPending).2

def close (s : Receiver α (Life τ σ)) (errorCode : Nat) (reason : Bytes) (now : Nat) :
    Except QuicError Unit × Receiver α (Life τ σ) :=
  if s.keys.state.hasEnded then (.ok (), s)
  else
    let frames := s.localCloseFrames errorCode reason
    if frames.isEmpty then
      (.error (.transport .internalError
        "no packet protection keys available to send CONNECTION_CLOSE"), s)
    else
      ((s.beginLocalClose E frames now).setClosingResponse true).flushPendingConnectionClose E

def flush (s : Receiver α (Life τ σ)) : Except QuicError Unit × Receiver α (Life τ σ) :=
  match s.keys.state with
  | .closing | .draining => s.flushPendingConnectionClose E
  | .closed => (.ok (), s)
  | _ => andThen (s.processTlsOutput E) fun s => s.perform E .sendPending

def feedDatagramFromWithEcn (s : Receiver α (Life τ σ)) (data : Bytes) (addr : α)
    (ecn : Option UdpEcnCodepoint) : Except QuicError Unit × Receiver α (Life τ σ) :=
  match s.keys.state with
  | .closing => (.ok (), s.setClosingResponse true)
  | .draining | .closed => (.ok (), s)
  | _ =>
    andThen (s.processDatagram P R E data addr ecn) fun s =>
      if s.keys.state.hasEnded then (.ok (), s) else s.processTlsOutput E

/-- A turn of the driver while the connection closes or drains. -/
def pollEnding (s : Receiver α (Life τ σ)) (now : Nat) (input : SocketInput α) :
    Except QuicError Unit × Receiver α (Life τ σ) :=
  let s :=
    if s.keys.state = .closing ∧ s.rest.incomingDatagrams ≠ [] then s.setClosingResponse true
    else s
  let s := s.setIncoming []
  let received :=
    if s.rest.endpointManaged then (.ok (), s)
    else
      match input with
      | .datagram _ _ _ =>
        (.ok (), if s.keys.state = .closing then s.setClosingResponse true else s)
      | .wouldBlock _ | .timedOut _ _ => (.ok (), s)
      | .failed message => (.error (.io message), s)
  andThen received fun s =>
    andThen (s.flushPendingConnectionClose E) fun s =>
      let s := s.handleInternalTimers E now
      if s.keys.state = .closed then (.error .connectionDraining, s) else (.ok (), s)

def afterTimers (s : Receiver α (Life τ σ)) (now : Nat) (closedError : QuicError)
    (go : Receiver α (Life τ σ) → Except QuicError Unit × Receiver α (Life τ σ)) :
    Except QuicError Unit × Receiver α (Life τ σ) :=
  let s := s.handleInternalTimers E now
  match s.keys.state with
  | .closed => (.error closedError, s)
  | .closing | .draining => s.flushPendingConnectionClose E
  | _ => go s

def pollSocket (s : Receiver α (Life τ σ)) (input : SocketInput α) :
    Except QuicError Unit × Receiver α (Life τ σ) :=
  if s.rest.endpointManaged then (.ok (), s)
  else
    match input with
    | .datagram data addr ecn => s.processDatagram P R E data addr ecn
    | .wouldBlock _ => (.ok (), s)
    | .timedOut message early => (if early then .error (.io message) else .ok (), s)
    | .failed message => (.error (.io message), s)

def idleTimeoutError : QuicError := .connectionClosed .noError "idle timeout"

/-- One turn of the driver. The clock is read on entry, after the queue and at the end. -/
def pollWithTimeout (s : Receiver α (Life τ σ)) (entry queued last : Nat)
    (input : SocketInput α) : Except QuicError Unit × Receiver α (Life τ σ) :=
  if s.keys.state = .closed then (.error .connectionDraining, s)
  else if hasPassed s.idleDeadline entry then
    (.error idleTimeoutError, s.becomeClosed .idleTimeout)
  else if s.keys.state.hasEnded then s.pollEnding E last input
  else
    andThen (processQueued P R E s.rest.incomingDatagrams s) fun s =>
      s.afterTimers E queued idleTimeoutError fun s =>
        andThen (s.processTlsOutput E) fun s =>
          andThen (s.perform E .sendPending) fun s =>
            andThen (s.pollSocket P R E input) fun s =>
              s.afterTimers E last .connectionDraining fun s =>
                andThen (s.processTlsOutput E) fun s =>
                  andThen (s.perform E .sendPending) fun s =>
                    (.ok (), (s.perform E .gcClosedStreams).2)

end Receiver

/-- What happens to a connection from outside. -/
inductive LifeEvent (α τ σ : Type)
  | poll (entry queued last : Nat) (input : SocketInput α)
  | feedDatagram (data : Bytes) (addr : α) (ecn : Option UdpEcnCodepoint)
  | enqueueDatagram (data : Bytes)
  | flush
  | close (errorCode : Nat) (reason : Bytes) (now : Nat)
  | timers (now : Nat)
  /-- Any other call: streams, key updates, paths. -/
  | call (effect : Receiver α (Life τ σ) → Except QuicError Unit × Receiver α (Life τ σ))

namespace Receiver

variable {α τ σ : Type} [DecidableEq α] (P : PacketProtection) (R : RetryIntegrity)
  (E : LifeEnv α τ σ)

def lifeStep (s : Receiver α (Life τ σ)) :
    LifeEvent α τ σ → Option (Except QuicError Unit × Receiver α (Life τ σ))
  | .poll entry queued last input => some (s.pollWithTimeout P R E entry queued last input)
  | .feedDatagram data addr ecn => some (s.feedDatagramFromWithEcn P R E data addr ecn)
  | .enqueueDatagram data => some (.ok (), s.setIncoming (s.rest.incomingDatagrams ++ [data]))
  | .flush => some (s.flush E)
  | .close errorCode reason now => some (s.close E errorCode reason now)
  | .timers now => some (.ok (), s.handleInternalTimers E now)
  | .call effect => some ((effect s).1, s.adopt (effect s).2)

end Receiver

end Starfish.Quic
