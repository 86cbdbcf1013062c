import Starfish.Quic.Connection.SplitFrame
import Starfish.Quic.Connection.Streams

/-!
# The packetiser

`send_pending_frames` fills packets space by space, builds each one, coalesces
Initial and Handshake packets into datagrams and sends the datagrams. Building
and sending are operations of a `PacketBuilder`, so that every pattern of built,
refused and failing packets is an instance of the loop.
-/

namespace Starfish.Quic

universe u

structure BuiltPacket where
  space : PacketNumberSpace
  pn : Nat
  frames : List Frame
  size : Nat
  ackEliciting : Bool
  trackRetransmission : Bool
  congestionControlled : Bool
  appKind : Option ApplicationPacketKind
deriving DecidableEq, Repr

/-- Nothing but CONNECTION_CLOSE; the congestion controller does not count it. -/
def isCloseOnly (frames : List Frame) : Bool :=
  !frames.isEmpty && frames.all fun
    | .connectionClose _ _ _ _ => true
    | _ => false

/-- What the send loop uses of the connection. A build that succeeds with no packet
was refused by the congestion or the amplification gate. -/
structure PacketBuilder (β : Type u) where
  applicationSendKind : β → Option ApplicationPacketKind
  hasKeys : β → PacketNumberSpace → Bool
  maxSendUdpPayloadSize : β → Nat
  tagLen : β → PacketNumberSpace → Nat
  maybeInitiateKeyUpdate : β → β
  build : β → PacketNumberSpace → List Frame → Bytes → Nat →
    Except QuicError (Option BuiltPacket) × β
  sendBuiltDatagram : β → List BuiltPacket → Except QuicError Unit × β
  build_frames : ∀ {b space frames payload pendingBytes packet b'},
    build b space frames payload pendingBytes = (.ok (some packet), b') →
      packet.space = space ∧ packet.frames = frames

def packetOverhead : Nat := 100

def frameAllowedInZeroRtt : Frame → Bool
  | .ack _ | .crypto _ | .handshakeDone | .newToken _ | .pathResponse _
  | .retireConnectionId _ => false
  | _ => true

/-! ## Filling one packet -/

/-- What becomes of a frame while a packet is filled. -/
inductive Placement
  | accept (encoded : Bytes)
  | split (head tail : Frame) (encoded : Bytes)
  | unsplit
  | defer

/-- Place one frame behind `payloadLen` bytes. A data frame that is too large for what
remains is split; if it cannot be split, the packet is closed without it. -/
def place (maxPayload payloadLen : Nat) (frame : Frame) : Except QuicError Placement := do
  let encoded ← frame.encode
  let budget := maxPayload - payloadLen
  if encoded.length ≤ budget then return .accept encoded
  else if 0 < budget ∧ frame.isData = true then
    match splitFrame frame budget with
    | some (head, tail) => do
        let headEncoded ← head.encode
        return .split head tail headEncoded
    | none => return .unsplit
  else if payloadLen = 0 then return .accept encoded
  else return .defer

structure Filled where
  packetFrames : List Frame
  payload : Bytes
  rest : List Frame

def fillPacket (maxPayload : Nat) : List Frame → Bytes → List Frame → Except QuicError Filled
  | packetFrames, payload, [] => .ok ⟨packetFrames, payload, []⟩
  | packetFrames, payload, frame :: rest =>
    match place maxPayload payload.length frame with
    | .error e => .error e
    | .ok (.accept encoded) =>
      fillPacket maxPayload (packetFrames ++ [frame]) (payload ++ encoded) rest
    | .ok (.split head tail encoded) =>
      .ok ⟨packetFrames ++ [head], payload ++ encoded, tail :: rest⟩
    | .ok .unsplit => .ok ⟨packetFrames, payload, rest⟩
    | .ok .defer => .ok ⟨packetFrames, payload, frame :: rest⟩

/-! ## Building and sending -/

/-- State of the send loop: the connection, the queue, the packets of the datagram
being coalesced and the datagrams sent so far. -/
structure Sending (β : Type u) where
  conn : β
  pendingFrames : List (PacketNumberSpace × Frame)
  coalescedPackets : List BuiltPacket
  sent : List (List BuiltPacket)

def datagramLen (packets : List BuiltPacket) : Nat := (packets.map BuiltPacket.size).sum

section Loop

variable {β : Type u} (builder : PacketBuilder β)

def sendDatagram (s : Sending β) (packets : List BuiltPacket) :
    Except QuicError Unit × Sending β :=
  match builder.sendBuiltDatagram s.conn packets with
  | (.error e, conn) => (.error e, { s with conn := conn })
  | (.ok (), conn) => (.ok (), { s with conn := conn, sent := s.sent ++ [packets] })

def flushCoalesced (s : Sending β) : Except QuicError Unit × Sending β :=
  if s.coalescedPackets.isEmpty then (.ok (), s)
  else sendDatagram builder { s with coalescedPackets := [] } s.coalescedPackets

/-- What is done with a packet that was built: ApplicationData packets are sent at
once, behind the coalesced ones; the others are coalesced while they fit. -/
def emitPacket (s : Sending β) (space : PacketNumberSpace) (packet : BuiltPacket) :
    Except QuicError Unit × Sending β :=
  if space = .applicationData then
    match flushCoalesced builder s with
    | (.error e, s) => (.error e, s)
    | (.ok (), s) => sendDatagram builder s [packet]
  else if datagramLen s.coalescedPackets + packet.size ≤ builder.maxSendUdpPayloadSize s.conn then
    (.ok (), { s with coalescedPackets := s.coalescedPackets ++ [packet] })
  else
    match flushCoalesced builder s with
    | (.error e, s) => (.error e, s)
    | (.ok (), s) => (.ok (), { s with coalescedPackets := s.coalescedPackets ++ [packet] })

def beforePacket (conn : β) (space : PacketNumberSpace) : β :=
  if space = .applicationData then builder.maybeInitiateKeyUpdate conn else conn

def maxPayload (conn : β) (space : PacketNumberSpace) : Nat :=
  builder.maxSendUdpPayloadSize conn - packetOverhead - builder.tagLen conn space

/-- How one pass of the loop over a space ends: with frames left and no more packet to
try, or with the frames for the next pass. -/
inductive Turn
  | stop (frames : List Frame)
  | again (frames : List Frame)

/-- One pass over a queue that is not empty: fill a packet, build it, emit it. -/
def sendTurn (space : PacketNumberSpace) (s : Sending β) (frames : List Frame) :
    Except QuicError Turn × Sending β :=
  let s := { s with conn := beforePacket builder s.conn space }
  match fillPacket (maxPayload builder s.conn space) [] [] frames with
  | .error e => (.error e, s)
  | .ok filled =>
    if filled.packetFrames.isEmpty then (.ok (.stop filled.rest), s)
    else
      let pendingBytes :=
        if space = .applicationData then 0 else datagramLen s.coalescedPackets
      match builder.build s.conn space filled.packetFrames filled.payload pendingBytes with
      | (.error e, conn) => (.error e, { s with conn := conn })
      | (.ok none, conn) =>
        (.ok (.stop (filled.packetFrames ++ filled.rest)), { s with conn := conn })
      | (.ok (some packet), conn) =>
        match emitPacket builder { s with conn := conn } space packet with
        | (.error e, s) => (.error e, s)
        | (.ok (), s) => (.ok (.again filled.rest), s)

/-- Send packets until the frames of the space are used up or no packet can be sent.
No result means that the turns did not suffice. -/
def sendLoop (space : PacketNumberSpace) :
    Nat → Sending β → List Frame → Option (Except QuicError (List Frame) × Sending β)
  | _, s, [] => some (.ok [], s)
  | 0, _, _ :: _ => none
  | fuel + 1, s, frame :: rest =>
    match sendTurn builder space s (frame :: rest) with
    | (.error e, s) => some (.error e, s)
    | (.ok (.stop frames), s) => some (.ok frames, s)
    | (.ok (.again frames), s) => sendLoop space fuel s frames

end Loop

/-! ## The loop ends -/

def queueWeight (frames : List Frame) : Nat := (frames.map Frame.weight).sum

@[simp] theorem queueWeight_nil : queueWeight [] = 0 := rfl

@[simp] theorem queueWeight_cons (frame : Frame) (rest : List Frame) :
    queueWeight (frame :: rest) = frame.weight + queueWeight rest := by
  simp [queueWeight]

theorem place_split {maxPayload payloadLen : Nat} {frame head tail : Frame} {encoded : Bytes}
    (h : place maxPayload payloadLen frame = .ok (.split head tail encoded)) :
    splitFrame frame (maxPayload - payloadLen) = some (head, tail) := by
  unfold place at h
  cases hencode : frame.encode with
  | error e => simp [hencode, bind, Except.bind] at h
  | ok enc =>
    simp only [bind, Except.bind, pure, Except.pure] at h
    grind

theorem fillPacket_weight {maxPayload : Nat} {packetFrames frames : List Frame} {payload : Bytes}
    {filled : Filled} (h : fillPacket maxPayload packetFrames payload frames = .ok filled) :
    queueWeight filled.rest ≤ queueWeight frames ∧
      (filled.packetFrames ≠ packetFrames → queueWeight filled.rest < queueWeight frames) := by
  induction frames generalizing packetFrames payload with
  | nil =>
    cases h
    exact ⟨Nat.le_refl _, fun hne => absurd rfl hne⟩
  | cons frame rest ih =>
    have hpos := frame.weight_pos
    simp only [fillPacket] at h
    rw [queueWeight_cons]
    split at h
    · cases h
    · grind
    · next head tail encoded hplace =>
      cases h
      have hlt := splitFrame_weight (place_split hplace)
      grind [queueWeight_cons]
    · grind
    · grind [queueWeight_cons]

theorem sendTurn_weight {β : Type u} {builder : PacketBuilder β} {space : PacketNumberSpace}
    {s s' : Sending β} {frames frames' : List Frame}
    (h : sendTurn builder space s frames = (.ok (.again frames'), s')) :
    queueWeight frames' < queueWeight frames := by
  unfold sendTurn at h
  dsimp only at h
  split at h
  · cases h
  · next filled hfill =>
    split at h
    · cases h
    · next hsome =>
      split at h
      · cases h
      · cases h
      · split at h
        · cases h
        · cases h
          exact (fillPacket_weight hfill).2 (fun hnil => hsome (by simp [hnil]))

theorem sendLoop_isSome {β : Type u} (builder : PacketBuilder β) (space : PacketNumberSpace)
    {fuel : Nat} (s : Sending β) (frames : List Frame) (h : queueWeight frames ≤ fuel) :
    (sendLoop builder space fuel s frames).isSome := by
  induction fuel generalizing s frames with
  | zero =>
    cases frames with
    | nil => rfl
    | cons frame rest =>
      have hpos := frame.weight_pos
      rw [queueWeight_cons] at h
      omega
  | succ fuel ih =>
    cases frames with
    | nil => rfl
    | cons frame rest =>
      simp only [sendLoop]
      split
      · rfl
      · rfl
      · next frames' s' hturn =>
        have hlt := sendTurn_weight hturn
        exact ih s' frames' (by omega)

section Spaces

variable {β : Type u} (builder : PacketBuilder β)

/-- The loop with turns enough for the queue. -/
def sendFrames (space : PacketNumberSpace) (s : Sending β) (frames : List Frame) :
    Except QuicError (List Frame) × Sending β :=
  (sendLoop builder space (queueWeight frames) s frames).get
    (sendLoop_isSome builder space s frames (Nat.le_refl _))

def spaceReady (conn : β) (space : PacketNumberSpace) : Bool :=
  if space = .applicationData then (builder.applicationSendKind conn).isSome
  else builder.hasKeys conn space

def takesPart (conn : β) (space : PacketNumberSpace) (x : PacketNumberSpace × Frame) : Bool :=
  decide (x.1 = space) &&
    !(decide (space = .applicationData) &&
      decide (builder.applicationSendKind conn = some .zeroRtt) && !frameAllowedInZeroRtt x.2)

/-- The queue while the frames of a space are being sent: the frames of the other
spaces, then the frames of this one that are not allowed in 0-RTT packets. -/
def setAside (conn : β) (space : PacketNumberSpace) (pending : List (PacketNumberSpace × Frame)) :
    List (PacketNumberSpace × Frame) :=
  (pending.filter fun x => !decide (x.1 = space)) ++
    (pending.filter fun x => decide (x.1 = space) && !takesPart builder conn space x)

def sendSpace (s : Sending β) (space : PacketNumberSpace) : Except QuicError Unit × Sending β :=
  if spaceReady builder s.conn space then
    let spaceFrames := (s.pendingFrames.filter (takesPart builder s.conn space)).map Prod.snd
    let s := { s with pendingFrames := setAside builder s.conn space s.pendingFrames }
    match sendFrames builder space s spaceFrames with
    | (.error e, s) => (.error e, s)
    | (.ok frames, s) =>
      (.ok (), { s with pendingFrames := s.pendingFrames ++ frames.map fun f => (space, f) })
  else (.ok (), s)

def sendSpaces : Sending β → List PacketNumberSpace → Except QuicError Unit × Sending β
  | s, [] => (.ok (), s)
  | s, space :: rest =>
    match sendSpace builder s space with
    | (.error e, s) => (.error e, s)
    | (.ok (), s) => sendSpaces s rest

def sendPendingFrames (conn : β) (pending : List (PacketNumberSpace × Frame)) :
    Except QuicError Unit × Sending β :=
  match sendSpaces builder ⟨conn, pending, [], []⟩ PacketNumberSpace.all with
  | (.error e, s) => (.error e, s)
  | (.ok (), s) => flushCoalesced builder s

end Spaces

end Starfish.Quic
