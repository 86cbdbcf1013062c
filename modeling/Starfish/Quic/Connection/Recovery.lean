import Starfish.Lib.Run
import Starfish.Quic.Connection.SendLoop
import Starfish.Quic.Recovery.Congestion
import Starfish.Quic.Recovery.LossDetection

/-!
# Recovery state of a connection

Sent packets are kept in three places: loss detection, the congestion controller
and the frames to send again. This module has every operation that changes one of
them: sending, ACK frames, path MTU probes, rejected 0-RTT data, discarded spaces,
Retry and the reset after a migration. Each operation lists what becomes of the
frames that it takes out of `sent_frames`.
-/

namespace Starfish.Quic

universe u v

/-- What becomes of the frames of a packet. -/
inductive Fate
  | released
  | requeued
  | dropped
deriving DecidableEq, Repr

/-- The frames of packet `pn` leave `sent_frames`. -/
structure Move where
  space : PacketNumberSpace
  pn : Nat
  frames : List Frame
  fate : Fate
deriving DecidableEq, Repr

def retransmittable (space : PacketNumberSpace) (frames : List Frame) :
    List (PacketNumberSpace × Frame) :=
  (frames.filter Frame.isRetransmittable).map fun f => (space, f)

/-! ## Path MTU discovery -/

structure PathMtuProbe where
  pn : Nat
  size : Nat
  sentAt : Nat
deriving DecidableEq, Repr

def maxDatagramSize : Nat := 1472

def maxLocalUdpPayloadSize : Nat := 65527

structure PathMtuState where
  peerMaxUdpPayloadSize : Nat := maxDatagramSize
  localMaxUdpPayloadSize : Nat := maxLocalUdpPayloadSize
  probeUpperBound : Nat := maxLocalUdpPayloadSize
  inFlightProbe : Option PathMtuProbe := none
  nextProbeAt : Option Nat := none
deriving DecidableEq, Repr

def PathMtuState.searchLimit (p : PathMtuState) : Nat :=
  min (min p.localMaxUdpPayloadSize p.peerMaxUdpPayloadSize) p.probeUpperBound

/-! ## State -/

/-- Of `pending_frames` only what is put into it matters here; taking frames out is the
part of the packetiser. -/
structure RecoveryState (γ : Type u) where
  lossDetection : LossDetection
  congestion : Congestion γ
  pendingFrames : List (PacketNumberSpace × Frame)
  sentFrames : PacketNumberSpace → OrdMap (List Frame)
  zeroRttInFlight : OrdMap Unit
  nextPn : PacketNumberSpace → Nat
  maxSendUdpPayloadSize : Nat
  pathMtu : PathMtuState
  peerMaxAckDelay : Nat
  peerAckDelayExponent : Nat

def forEach {σ : Type u} {α : Type v} (f : σ → α → σ × List Move) : σ → List α → σ × List Move
  | s, [] => (s, [])
  | s, a :: rest =>
    let first := f s a
    let later := forEach f first.1 rest
    (later.1, first.2 ++ later.2)

namespace RecoveryState

variable {γ : Type u}

def new (alg : CongestionAlgorithm γ) : RecoveryState γ where
  lossDetection := LossDetection.new
  congestion := Congestion.newInstance alg
  pendingFrames := []
  sentFrames := fun _ => OrdMap.empty
  zeroRttInFlight := OrdMap.empty
  nextPn := fun _ => 0
  maxSendUdpPayloadSize := maxDatagramSize
  pathMtu := {}
  peerMaxAckDelay := millis 25
  peerAckDelayExponent := 3

def setSentFrames (s : RecoveryState γ) (space : PacketNumberSpace) (frames : OrdMap (List Frame)) :
    RecoveryState γ :=
  { s with sentFrames := fun other => if other = space then frames else s.sentFrames other }

def setNextPn (s : RecoveryState γ) (space : PacketNumberSpace) (pn : Nat) : RecoveryState γ :=
  { s with nextPn := fun other => if other = space then pn else s.nextPn other }

def pushFrames (s : RecoveryState γ) (frames : List (PacketNumberSpace × Frame)) :
    RecoveryState γ :=
  { s with pendingFrames := s.pendingFrames ++ frames }

def takeFrames (fate : Fate) (space : PacketNumberSpace) (s : RecoveryState γ) (pn : Nat) :
    RecoveryState γ × List Move :=
  match (s.sentFrames space).find? pn with
  | none => (s, [])
  | some frames =>
    let queued := if fate = .requeued then retransmittable space frames else []
    ((s.setSentFrames space ((s.sentFrames space).erase pn)).pushFrames queued,
      [⟨space, pn, frames, fate⟩])

def forgetZeroRtt (s : RecoveryState γ) (pn : Nat) : RecoveryState γ :=
  { s with zeroRttInFlight := s.zeroRttInFlight.erase pn }

def discardTracked (s : RecoveryState γ) (space : PacketNumberSpace) (pn : Nat) : RecoveryState γ :=
  match s.lossDetection.removeSentPacket space pn with
  | (some pkt, ld) =>
    { s with lossDetection := ld, congestion := s.congestion.onPacketDiscarded pkt.size }
  | (none, ld) => { s with lossDetection := ld }

def discardAllTracked (s : RecoveryState γ) (space : PacketNumberSpace) : RecoveryState γ :=
  let taken := s.lossDetection.takeSentPackets space
  { s with
    lossDetection := taken.2
    congestion := taken.1.foldl (fun c pkt => c.onPacketDiscarded pkt.size) s.congestion }

section Fields

variable (fate : Fate) (space : PacketNumberSpace) (s : RecoveryState γ) (pn : Nat)

@[simp] theorem takeFrames_lossDetection :
    (takeFrames fate space s pn).1.lossDetection = s.lossDetection := by
  unfold takeFrames
  split <;> rfl

@[simp] theorem takeFrames_congestion :
    (takeFrames fate space s pn).1.congestion = s.congestion := by
  unfold takeFrames
  split <;> rfl

@[simp] theorem takeFrames_nextPn : (takeFrames fate space s pn).1.nextPn = s.nextPn := by
  unfold takeFrames
  split <;> rfl

@[simp] theorem takeFrames_pathMtu : (takeFrames fate space s pn).1.pathMtu = s.pathMtu := by
  unfold takeFrames
  split <;> rfl

theorem takeFrames_sentFrames (other : PacketNumberSpace) :
    (takeFrames fate space s pn).1.sentFrames other =
      if other = space then (s.sentFrames space).erase pn else s.sentFrames other := by
  unfold takeFrames
  split
  · next hnone =>
    grind [OrdMap.erase_eq_self]
  · rfl

@[simp] theorem discardTracked_lossDetection :
    (s.discardTracked space pn).lossDetection = (s.lossDetection.removeSentPacket space pn).2 := by
  grind [discardTracked]

@[simp] theorem discardTracked_sentFrames :
    (s.discardTracked space pn).sentFrames = s.sentFrames := by
  unfold discardTracked
  split <;> rfl

@[simp] theorem discardTracked_pendingFrames :
    (s.discardTracked space pn).pendingFrames = s.pendingFrames := by
  unfold discardTracked
  split <;> rfl

@[simp] theorem discardTracked_nextPn : (s.discardTracked space pn).nextPn = s.nextPn := by
  unfold discardTracked
  split <;> rfl

@[simp] theorem discardTracked_pathMtu : (s.discardTracked space pn).pathMtu = s.pathMtu := by
  unfold discardTracked
  split <;> rfl

end Fields

/-! ## Sending -/

def builtPacket (s : RecoveryState γ) (space : PacketNumberSpace) (frames : List Frame) (size : Nat)
    (trackRetransmission : Bool) (appKind : Option ApplicationPacketKind) : BuiltPacket where
  space := space
  pn := s.nextPn space
  frames := frames
  size := size
  ackEliciting := frames.any Frame.isAckEliciting
  trackRetransmission := trackRetransmission
  congestionControlled := !isCloseOnly frames
  appKind := appKind

/-- Enter a packet of a sent datagram in loss detection, in `sent_frames` and in the
0-RTT set, if it is tracked. -/
def trackPacket (s : RecoveryState γ) (packet : BuiltPacket) (now : Nat)
    (ecn : Option UdpEcnCodepoint) : RecoveryState γ :=
  if packet.trackRetransmission then
    let s := s.setSentFrames packet.space ((s.sentFrames packet.space).insert packet.pn packet.frames)
    { s with
      lossDetection := s.lossDetection.onPacketSent
        ⟨packet.pn, packet.space, now, packet.size, packet.ackEliciting, ecn⟩
      zeroRttInFlight :=
        if packet.appKind = some .zeroRtt then s.zeroRttInFlight.insert packet.pn ()
        else s.zeroRttInFlight }
  else s

/-- What `send_built_datagram_to_addr` records of one packet. -/
def recordSent (s : RecoveryState γ) (packet : BuiltPacket) (now : Nat)
    (ecn : Option UdpEcnCodepoint) : RecoveryState γ :=
  let s := s.trackPacket packet now ecn
  if packet.congestionControlled then
    { s with congestion := s.congestion.onPacketSent packet.size }
  else s

section RecordFields

variable (s : RecoveryState γ) (packet : BuiltPacket) (now : Nat) (ecn : Option UdpEcnCodepoint)

theorem trackPacket_lossDetection :
    (s.trackPacket packet now ecn).lossDetection =
      if packet.trackRetransmission then s.lossDetection.onPacketSent
        ⟨packet.pn, packet.space, now, packet.size, packet.ackEliciting, ecn⟩
      else s.lossDetection := by
  unfold trackPacket
  split <;> rfl

theorem trackPacket_sentFrames (space : PacketNumberSpace) :
    (s.trackPacket packet now ecn).sentFrames space =
      if packet.trackRetransmission = true ∧ space = packet.space then
        (s.sentFrames space).insert packet.pn packet.frames
      else s.sentFrames space := by
  grind [trackPacket, setSentFrames]

@[simp] theorem trackPacket_congestion :
    (s.trackPacket packet now ecn).congestion = s.congestion := by
  unfold trackPacket
  split <;> rfl

@[simp] theorem trackPacket_nextPn : (s.trackPacket packet now ecn).nextPn = s.nextPn := by
  unfold trackPacket
  split <;> rfl

@[simp] theorem trackPacket_pathMtu : (s.trackPacket packet now ecn).pathMtu = s.pathMtu := by
  unfold trackPacket
  split <;> rfl

@[simp] theorem trackPacket_pendingFrames :
    (s.trackPacket packet now ecn).pendingFrames = s.pendingFrames := by
  unfold trackPacket
  split <;> rfl

theorem recordSent_eq :
    s.recordSent packet now ecn =
      { s.trackPacket packet now ecn with
        congestion := (s.recordSent packet now ecn).congestion } := by
  unfold recordSent
  split <;> rfl

theorem recordSent_bytesInFlight :
    (s.recordSent packet now ecn).congestion.bytesInFlight =
      s.congestion.bytesInFlight + if packet.congestionControlled then packet.size else 0 := by
  unfold recordSent
  split
  · simp [Congestion.onPacketSent]
  · simp

end RecordFields

def sendPacket (s : RecoveryState γ) (space : PacketNumberSpace) (frames : List Frame) (size : Nat)
    (trackRetransmission : Bool) (appKind : Option ApplicationPacketKind) (now : Nat)
    (ecn : Option UdpEcnCodepoint) : RecoveryState γ :=
  (s.setNextPn space (s.nextPn space + 1)).recordSent
    (s.builtPacket space frames size trackRetransmission appKind) now ecn

/-! ## Path MTU probes -/

def nextPathMtuProbeSize (s : RecoveryState γ) : Option Nat :=
  let current := s.maxSendUdpPayloadSize
  let limit := s.pathMtu.searchLimit
  if limit ≤ current then none
  else
    let doubled := saturatingMul current 2
    let candidate := if limit < doubled then current + (limit - current + 1) / 2 else doubled
    if current < candidate then some (min candidate limit) else none

def pathMtuProbeInterval (s : RecoveryState γ) : Nat :=
  max s.lossDetection.rtt.smoothedRtt (millis 10)

def scheduleNextPathMtuProbe (s : RecoveryState γ) (now : Nat) : RecoveryState γ :=
  let at? := if s.nextPathMtuProbeSize.isSome then some (now + s.pathMtuProbeInterval) else none
  { s with pathMtu := { s.pathMtu with nextProbeAt := at? } }

def probeWith (s : RecoveryState γ) (pn : Nat) : Option PathMtuProbe :=
  match s.pathMtu.inFlightProbe with
  | some probe => if probe.pn = pn then some probe else none
  | none => none

def clearProbe (s : RecoveryState γ) : RecoveryState γ :=
  { s with pathMtu := { s.pathMtu with inFlightProbe := none } }

def lowerProbeBound (s : RecoveryState γ) (size : Nat) : RecoveryState γ :=
  { s with pathMtu :=
    { s.pathMtu with probeUpperBound := min s.pathMtu.probeUpperBound (size - 1) } }

def completePathMtuProbeSuccess (s : RecoveryState γ) (pn now : Nat) : RecoveryState γ :=
  match s.probeWith pn with
  | none => s
  | some probe =>
    scheduleNextPathMtuProbe { s.clearProbe with maxSendUdpPayloadSize := probe.size } now

def abandonPathMtuProbe (s : RecoveryState γ) (pn : Nat) : RecoveryState γ × List Move :=
  match s.probeWith pn with
  | none => (s, [])
  | some _ =>
    let taken := takeFrames .dropped .applicationData s.clearProbe pn
    (taken.1.discardTracked .applicationData pn, taken.2)

def sendPathMtuProbe (s : RecoveryState γ) (size now : Nat) (ecn : Option UdpEcnCodepoint) :
    RecoveryState γ :=
  if s.pathMtu.inFlightProbe.isSome then s
  else
    let pn := s.nextPn .applicationData
    let s := s.sendPacket .applicationData [.ping] size true (some .oneRtt) now ecn
    { s with pathMtu :=
      { s.pathMtu with inFlightProbe := some ⟨pn, size, now⟩, nextProbeAt := none } }

def limitDatagrams (s : RecoveryState γ) (peerMax : Nat) : RecoveryState γ :=
  let pathMtu := { s.pathMtu with peerMaxUdpPayloadSize := peerMax }
  { s with
    pathMtu := pathMtu
    maxSendUdpPayloadSize := min s.maxSendUdpPayloadSize pathMtu.searchLimit }

def abandonOversizedProbe (s : RecoveryState γ) : RecoveryState γ × List Move :=
  match s.pathMtu.inFlightProbe with
  | some probe =>
    if s.pathMtu.searchLimit < probe.size then s.abandonPathMtuProbe probe.pn else (s, [])
  | none => (s, [])

def probeIfRoom (s : RecoveryState γ) (now : Nat) : RecoveryState γ :=
  let at? :=
    if s.maxSendUdpPayloadSize < s.pathMtu.searchLimit then some (s.pathMtu.nextProbeAt.getD now)
    else none
  { s with pathMtu := { s.pathMtu with nextProbeAt := at? } }

def applyPeerMaxUdpPayloadSize (s : RecoveryState γ) (peerMax now : Nat) :
    RecoveryState γ × List Move :=
  let abandoned := (s.limitDatagrams peerMax).abandonOversizedProbe
  (abandoned.1.probeIfRoom now, abandoned.2)

section Events

variable (alg : CongestionAlgorithm γ)

def loseTracked (s : RecoveryState γ) (space : PacketNumberSpace) (pn now : Nat) :
    RecoveryState γ :=
  match s.lossDetection.removeSentPacket space pn with
  | (some pkt, ld) =>
    { s with
      lossDetection := ld
      congestion := s.congestion.onLoss alg pkt.size pkt.timeSent now }
  | (none, ld) => { s with lossDetection := ld }

def completePathMtuProbeFailure (s : RecoveryState γ) (pn now : Nat) :
    RecoveryState γ × List Move :=
  match s.probeWith pn with
  | none => (s, [])
  | some probe =>
    let taken := takeFrames .dropped .applicationData s.clearProbe pn
    let s := (taken.1.loseTracked alg .applicationData pn now).lowerProbeBound probe.size
    (s.scheduleNextPathMtuProbe now, taken.2)

def handlePathMtuProbeTimeout (s : RecoveryState γ) (now : Nat) : RecoveryState γ × List Move :=
  match s.pathMtu.inFlightProbe with
  | some probe => s.completePathMtuProbeFailure alg probe.pn now
  | none => (s, [])

/-! ## ACK frames -/

/-- Take an acknowledged packet off the bytes in flight, as a sign of congestion if it is
counted as CE-marked. -/
def creditAcked (s : RecoveryState γ) (pkt : SentPacket) (marked : Bool) (rtt now : Nat) :
    RecoveryState γ :=
  let congestion :=
    if marked then s.congestion.onEcnCe alg pkt.size pkt.timeSent now
    else s.congestion.onAck alg pkt.size rtt pkt.timeSent now
  { s with congestion := congestion }

/-- A newly acknowledged packet. The number of CE marks still to be attributed is part
of the state of the loop. -/
def ackedPacket (space : PacketNumberSpace) (rtt now : Nat) (x : RecoveryState γ × Nat)
    (pkt : SentPacket) : (RecoveryState γ × Nat) × List Move :=
  let s := x.1.forgetZeroRtt pkt.pn
  let s := if pkt.space = .applicationData then s.completePathMtuProbeSuccess pkt.pn now else s
  let marked := decide (0 < x.2) &&
    (decide (pkt.ecnMarking = some .ect0) || decide (pkt.ecnMarking = some .ect1))
  let taken := takeFrames .released space (s.creditAcked alg pkt marked rtt now) pkt.pn
  ((taken.1, if marked then x.2 - 1 else x.2), taken.2)

def creditLost (s : RecoveryState γ) (pkt : SentPacket) (now : Nat) : RecoveryState γ :=
  { s with congestion := s.congestion.onLoss alg pkt.size pkt.timeSent now }

def lostPacket (space : PacketNumberSpace) (now : Nat) (s : RecoveryState γ) (pkt : SentPacket) :
    RecoveryState γ × List Move :=
  let s := s.forgetZeroRtt pkt.pn
  let failed :=
    if pkt.space = .applicationData then s.completePathMtuProbeFailure alg pkt.pn now else (s, [])
  let taken := takeFrames .requeued space (failed.1.creditLost alg pkt now) pkt.pn
  (taken.1, failed.2 ++ taken.2)

/-- Process an ACK frame. `ceMarked` is the number of CE marks that the validation of
the frame's ECN counts reports. -/
def processAck (timeThreshold : Nat → Nat) (s : RecoveryState γ) (space : PacketNumberSpace)
    (ack : AckFrame) (ceMarked now : Nat) : Option (RecoveryState γ × List Move) :=
  let ackDelay := (ack.ackDelay <<< min s.peerAckDelayExponent 20) % 2 ^ 64 * 1000
  let ranges := ack.ranges.map fun r => (r.start, r.stop)
  match s.lossDetection.onAckReceived timeThreshold space ack.largestAcknowledged ackDelay ranges
      now with
  | none => none
  | some ((acked, lost), ld) =>
    let persistent := ld.detectsPersistentCongestion space acked lost
    let ld := ld.pruneAcknowledgedAckElicitingTimes space
    let s := { s with lossDetection := ld }
    let ackedRes := forEach (ackedPacket alg space ld.rtt.latestRtt now) (s, ceMarked) acked
    let lostRes := forEach (lostPacket alg space now) ackedRes.1.1 lost
    let s := lostRes.1
    let s :=
      if persistent then { s with congestion := s.congestion.onPersistentCongestion alg } else s
    some (s, ackedRes.2 ++ lostRes.2)

/-! ## 0-RTT, discarded spaces, Retry and migration -/

def requeueZeroRttPacket (s : RecoveryState γ) (pn : Nat) : RecoveryState γ × List Move :=
  let taken := takeFrames .requeued .applicationData (s.discardTracked .applicationData pn) pn
  (taken.1.forgetZeroRtt pn, taken.2)

def requeueZeroRttInFlight (s : RecoveryState γ) : RecoveryState γ × List Move :=
  forEach requeueZeroRttPacket s s.zeroRttInFlight.keys

def discardSpace (s : RecoveryState γ) (space : PacketNumberSpace) : RecoveryState γ × List Move :=
  forEach (takeFrames .dropped space) (s.discardAllTracked space) (s.sentFrames space).keys

def processHandshakeDone (s : RecoveryState γ) (earlyDataRejected : Bool) :
    RecoveryState γ × List Move :=
  let requeued := if earlyDataRejected then s.requeueZeroRttInFlight else (s, [])
  let discarded := requeued.1.discardSpace .handshake
  (discarded.1, requeued.2 ++ discarded.2)

/-- Frames queued under the old Initial keys are not sent. -/
def dropInitialFrames (s : RecoveryState γ) : RecoveryState γ :=
  { s with pendingFrames := s.pendingFrames.filter fun x =>
      !decide (x.1 = PacketNumberSpace.initial) }

/-- The ClientHello, to be sent again from offset 0. -/
def initialHello : Option Bytes → List (PacketNumberSpace × Frame)
  | some data => [(.initial, .crypto ⟨0, data⟩)]
  | none => []

def processRetry (s : RecoveryState γ) (initialCryptoData : Option Bytes) :
    RecoveryState γ × List Move :=
  let discarded := (s.setNextPn .initial 0).discardSpace .initial
  let requeued := discarded.1.dropInitialFrames.requeueZeroRttInFlight
  (requeued.1.pushFrames (initialHello initialCryptoData), discarded.2 ++ requeued.2)

/-- Everything in flight in one space goes back to the queue. -/
def requeueSpace (s : RecoveryState γ) (space : PacketNumberSpace) : RecoveryState γ × List Move :=
  forEach (takeFrames .requeued space) (s.discardAllTracked space) (s.sentFrames space).keys

def resetPathRecoveryAfterValidation (s : RecoveryState γ) (now : Nat) :
    RecoveryState γ × List Move :=
  let requeued := forEach requeueSpace s PacketNumberSpace.all
  let s := requeued.1
  let pathMtu : PathMtuState := { peerMaxUdpPayloadSize := s.pathMtu.peerMaxUdpPayloadSize }
  let pathMtu := { pathMtu with probeUpperBound := pathMtu.searchLimit }
  let at? := if maxDatagramSize < pathMtu.searchLimit then some now else none
  ({ s with
    lossDetection := LossDetection.new.setMaxAckDelay s.peerMaxAckDelay
    congestion := Congestion.newInstance alg
    maxSendUdpPayloadSize := maxDatagramSize
    pathMtu := { pathMtu with nextProbeAt := at? } }, requeued.2)

end Events

end RecoveryState

/-! ## The machine -/

inductive HandshakeSpace
  | initial
  | handshake
deriving DecidableEq, Repr

def HandshakeSpace.toSpace : HandshakeSpace → PacketNumberSpace
  | .initial => .initial
  | .handshake => .handshake

/-- Everything that happens to the recovery state. A skipped packet was built, so its
number is used up, but its datagram could not be sent. -/
inductive RecoveryEvent
  | sent (space : PacketNumberSpace) (frames : List Frame) (size : Nat)
      (trackRetransmission : Bool) (appKind : Option ApplicationPacketKind) (now : Nat)
      (ecn : Option UdpEcnCodepoint)
  | skipped (space : PacketNumberSpace)
  | probeSent (size now : Nat) (ecn : Option UdpEcnCodepoint)
  | ack (space : PacketNumberSpace) (frame : AckFrame) (ceMarked now : Nat)
  | probeTimeout (now : Nat)
  | peerMaxUdpPayloadSize (peerMax now : Nat)
  | zeroRttRejected
  | handshakeDone (earlyDataRejected : Bool)
  | discarded (space : HandshakeSpace)
  | retry (initialCryptoData : Option Bytes)
  | pathReset (now : Nat)
  | ptoTimeout
  | queue (space : PacketNumberSpace) (frame : Frame)

/-- One event; the response lists the frames that left `sent_frames`. -/
def RecoveryState.step {γ : Type u} (alg : CongestionAlgorithm γ) (timeThreshold : Nat → Nat)
    (s : RecoveryState γ) : RecoveryEvent → Option (List Move × RecoveryState γ)
  | .sent space frames size trackRetransmission appKind now ecn =>
    some ([], s.sendPacket space frames size trackRetransmission appKind now ecn)
  | .skipped space => some ([], s.setNextPn space (s.nextPn space + 1))
  | .probeSent size now ecn => some ([], s.sendPathMtuProbe size now ecn)
  | .ack space frame ceMarked now =>
    (s.processAck alg timeThreshold space frame ceMarked now).map Prod.swap
  | .probeTimeout now => some (s.handlePathMtuProbeTimeout alg now).swap
  | .peerMaxUdpPayloadSize peerMax now => some (s.applyPeerMaxUdpPayloadSize peerMax now).swap
  | .zeroRttRejected => some s.requeueZeroRttInFlight.swap
  | .handshakeDone earlyDataRejected => some (s.processHandshakeDone earlyDataRejected).swap
  | .discarded space => some (s.discardSpace space.toSpace).swap
  | .retry initialCryptoData => some (s.processRetry initialCryptoData).swap
  | .pathReset now => some (s.resetPathRecoveryAfterValidation alg now).swap
  | .ptoTimeout => some ([], { s with lossDetection := s.lossDetection.onPtoTimeout })
  | .queue space frame => some ([], s.pushFrames [(space, frame)])

end Starfish.Quic
