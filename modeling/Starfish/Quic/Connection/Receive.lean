import Starfish.Quic.Connection.Keys
import Starfish.Quic.Connection.PeerPaths
import Starfish.Quic.Recovery.LossDetection

/-!
# Receiving datagrams

`process_datagram_from_with_ecn` splits a datagram into its packets and
`process_packet` removes the protection of one packet. What happens to the frames
of a packet that opens is a parameter, as are the socket addresses, the random
challenges and the parts of the connection that neither function touches.
-/

namespace Starfish.Quic

universe u v

inductive ReceivedPacketKind
  | initial
  | handshake
  | zeroRtt
  | oneRtt
deriving DecidableEq, Repr

inductive PathValidationKind (α : Type u)
  | observedPeerMigration
  | preferredAddress (peerAddr : α) (connectionId : ConnectionId) (statelessResetToken : Bytes)
deriving DecidableEq

structure PendingPeerPathValidation (α : Type u) where
  peerAddr : α
  challengeData : Bytes
  kind : PathValidationKind α
deriving DecidableEq

/-- A connection as the receive path sees it; `rest` is everything that only the frames of
an authentic packet, a Retry or a stateless reset can change. -/
structure Receiver (α : Type u) (γ : Type v) where
  keys : KeyState
  paths : PeerPaths α
  peerInitialSourceConnectionId : Option ConnectionId
  largestRecvPn : PacketNumberSpace → Nat
  cidLen : Nat
  peerStatelessResetTokens : List Bytes
  peerDisableActiveMigration : Bool
  pendingPeerPathValidation : Option (PendingPeerPathValidation α)
  pendingTargetedFrames : List (α × PacketNumberSpace × Frame)
  rest : γ

structure OpenedPacket where
  space : PacketNumberSpace
  kind : ReceivedPacketKind
  pn : Nat
  plaintext : Bytes
  size : Nat

/-- What the receive path uses of the rest of the program. -/
structure ReceiveEnv (α : Type u) (γ : Type v) where
  /-- Book-keeping and frame processing for an authentic packet. -/
  processOpened : Receiver α γ → OpenedPacket → α → Option UdpEcnCodepoint →
    Except QuicError Unit × Receiver α γ
  /-- What else an accepted Retry resets. -/
  afterRetry : γ → γ
  /-- What else changes when the connection starts to drain. -/
  drain : γ → γ
  challenge : γ → Bytes

def statelessResetTokenLen : Nat := 16

def minStatelessResetLen : Nat := 1 + 4 + statelessResetTokenLen

def shouldSilentlyDropProtectedPacket : QuicError → Bool
  | .invalidPacket message =>
    message == "AEAD decryption failed" || message == "header protection decrypt failed"
  | _ => false

/-- A packet after its header protection has been removed. -/
structure Unprotected where
  pn : Nat
  keyPhase : Bool
  header : Bytes
  ciphertext : Bytes

def packetBounds (cidLen : Nat) (buf : Bytes) : Except QuicError (Option (Nat × Nat)) :=
  if isLongHeader (byteAt buf 0) then
    match parseHeader buf cidLen with
    | .error e => .error e
    | .ok (.long h) =>
      let bounds (fields : PacketFields) := some (fields.pnOffset, fields.pnOffset + fields.length)
      match h.packetType with
      | .initial => (parseInitialFields buf h.headerLen).map bounds
      | .handshake => (parseHandshakeFields buf h.headerLen).map bounds
      | .zeroRtt => (parseZeroRttFields buf h.headerLen).map bounds
      | .retry => .ok (some (h.headerLen, buf.length))
    | .ok _ => .ok none
  else .ok (some (1 + cidLen, buf.length))

def unprotect (P : PacketProtection) (largestRecvPn : Nat) (headerKey : KeyId) (buf : Bytes)
    (pnOffset payloadEnd : Nat) : Except QuicError Unprotected :=
  match P.removeHeaderProtection buf pnOffset headerKey with
  | .error e => .error e
  | .ok (pnLen, clear) =>
    let keyPhase := !isLongHeader (byteAt buf 0) && (byteAt clear 0 &&& 0x04 != 0)
    let truncatedPn := beNat (slice clear pnOffset (pnOffset + pnLen))
    let headerEnd := pnOffset + pnLen
    let payloadEnd := min payloadEnd clear.length
    if payloadEnd ≤ headerEnd then .error (.invalidPacket "packet too short for payload")
    else
      .ok ⟨decodePacketNumber truncatedPn pnLen largestRecvPn, keyPhase, clear.take headerEnd,
        slice clear headerEnd payloadEnd⟩

namespace Receiver

variable {α : Type u} {γ : Type v} [DecidableEq α] (P : PacketProtection) (R : RetryIntegrity)
  (E : ReceiveEnv α γ)

def remoteKeys (s : Receiver α γ) (space : PacketNumberSpace) (kind : ReceivedPacketKind) :
    Option (KeyId × KeyId) :=
  match kind with
  | .zeroRtt => s.keys.keys.zeroRttRemote.map fun k => (k, k)
  | _ => (s.keys.keys.get space).map fun k => (k.remoteKey, k.remoteHeader)

def decrypt (s : Receiver α γ) (packetKey : KeyId) (isShortHeader : Bool) (u : Unprotected) :
    Except QuicError Bytes × KeyState :=
  if isShortHeader = true ∧ u.keyPhase ≠ s.keys.remoteKeyPhase then
    s.keys.tryDecryptWithNextKeys P u.pn u.keyPhase u.header u.ciphertext
  else (P.decryptPacket u.pn u.header u.ciphertext packetKey, s.keys)

def afterDecrypt (s : Receiver α γ) (space : PacketNumberSpace) (kind : ReceivedPacketKind)
    (pn size : Nat) (addr : α) (ecn : Option UdpEcnCodepoint) :
    Except QuicError Bytes × KeyState → Except QuicError Unit × Receiver α γ
  | (.error e, keys) => (.error e, { s with keys := keys })
  | (.ok plaintext, keys) =>
    E.processOpened { s with keys := keys } ⟨space, kind, pn, plaintext, size⟩ addr ecn

def processPacket (s : Receiver α γ) (space : PacketNumberSpace) (kind : ReceivedPacketKind)
    (data : Bytes) (addr : α) (ecn : Option UdpEcnCodepoint) :
    Except QuicError Unit × Receiver α γ :=
  match s.remoteKeys space kind with
  -- A packet without keys is dropped.
  | none => (.ok (), s)
  | some keys =>
    match packetBounds s.cidLen data with
    | .error e => (.error e, s)
    | .ok none => (.ok (), s)
    | .ok (some bounds) =>
      match unprotect P (s.largestRecvPn space) keys.2 data bounds.1 bounds.2 with
      | .error e => (.error e, s)
      | .ok u =>
        s.afterDecrypt E space kind u.pn data.length addr ecn
          (s.decrypt P keys.1 (!isLongHeader (byteAt data 0)) u)

/-! ## Path validation -/

def queueTargetedFrame (s : Receiver α γ) (addr : α) (space : PacketNumberSpace) (frame : Frame) :
    Receiver α γ :=
  { s with pendingTargetedFrames := s.pendingTargetedFrames ++ [(addr, space, frame)] }

def startPathValidation (s : Receiver α γ) (addr : α) (kind : PathValidationKind α) :
    Receiver α γ :=
  if s.keys.state ≠ .connected ∨ addr = s.paths.peerAddr ∨ s.cidLen = 0 then s
  else
    let s :=
      if s.paths.side = .server then { s with paths := s.paths.ensureEntry addr } else s
    if kind = .observedPeerMigration ∧ s.keys.side = .client ∧
        s.peerDisableActiveMigration = true then s
    else if s.pendingPeerPathValidation.isSome then s
    else
      let challengeData := E.challenge s.rest
      { s with pendingPeerPathValidation := some ⟨addr, challengeData, kind⟩ }.queueTargetedFrame
        addr .applicationData (.pathChallenge challengeData)

def beginPeerPathValidation (s : Receiver α γ) (addr : α) : Receiver α γ :=
  s.startPathValidation E addr .observedPeerMigration

/-! ## The packets of a datagram -/

def isStatelessReset (s : Receiver α γ) (data : Bytes) : Bool :=
  decide (minStatelessResetLen ≤ data.length) && !isLongHeader (byteAt data 0) &&
    s.peerStatelessResetTokens.contains (data.drop (data.length - statelessResetTokenLen))

def enterDraining (s : Receiver α γ) : Receiver α γ :=
  if s.keys.state = .closed then s
  else { s with keys := { s.keys with state := .draining }, rest := E.drain s.rest }

/-- The first long header that is not a Retry fixes the connection ID of the peer. -/
def captureSourceCid (s : Receiver α γ) (h : LongHeader) : Receiver α γ :=
  if h.packetType ≠ .retry ∧ s.peerInitialSourceConnectionId = none then
    { s with
      peerInitialSourceConnectionId := some h.scid
      keys := if s.keys.side = .client then { s.keys with peerCid := h.scid } else s.keys }
  else s

def processRetry (s : Receiver α γ) (data : Bytes) (h : LongHeader) :
    Except QuicError Unit × Receiver α γ :=
  match s.keys.checkRetry R data h with
  | .error e => (.error e, s)
  | .ok none => (.ok (), s)
  | .ok (some token) =>
    (.ok (), { s with keys := s.keys.restartInitial token h.scid, rest := E.afterRetry s.rest })

end Receiver

def longPacketKind : LongPacketType → Option (PacketNumberSpace × ReceivedPacketKind)
  | .initial => some (.initial, .initial)
  | .handshake => some (.handshake, .handshake)
  | .zeroRtt => some (.applicationData, .zeroRtt)
  | .retry => none

def longPacketEnd (h : LongHeader) (remaining : Bytes) : Except QuicError Nat :=
  let stop (fields : PacketFields) := min (fields.pnOffset + fields.length) remaining.length
  match h.packetType with
  | .initial => (parseInitialFields remaining h.headerLen).map stop
  | .handshake => (parseHandshakeFields remaining h.headerLen).map stop
  | .zeroRtt => (parseZeroRttFields remaining h.headerLen).map stop
  | .retry => .ok remaining.length

/-- How the loop over the packets goes on. -/
inductive Advance
  | done (result : Except QuicError Unit)
  | next (remaining : Bytes)

namespace Receiver

variable {α : Type u} {γ : Type v} [DecidableEq α] (P : PacketProtection) (R : RetryIntegrity)
  (E : ReceiveEnv α γ)

def processLongPacket (s : Receiver α γ) (space : PacketNumberSpace) (kind : ReceivedPacketKind)
    (remaining : Bytes) (stop : Nat) (addr : α) (ecn : Option UdpEcnCodepoint) :
    Advance × Receiver α γ :=
  if s.keys.side = .client ∧ kind = .zeroRtt then (.next (remaining.drop stop), s)
  else
    match s.processPacket P E space kind (remaining.take stop) addr ecn with
    | (.ok (), s) => (.next (remaining.drop stop), s.beginPeerPathValidation E addr)
    | (.error e, s) =>
      if shouldSilentlyDropProtectedPacket e then (.next (remaining.drop stop), s)
      else (.done (.error e), s)

def processLong (s : Receiver α γ) (h : LongHeader) (remaining : Bytes) (addr : α)
    (ecn : Option UdpEcnCodepoint) : Advance × Receiver α γ :=
  let s := s.captureSourceCid h
  match longPacketKind h.packetType with
  | none =>
    let (result, s) := s.processRetry R E remaining h
    (.done result, s)
  | some (space, kind) =>
    match longPacketEnd h remaining with
    | .error e => (.done (.error e), s)
    | .ok stop => s.processLongPacket P E space kind remaining stop addr ecn

/-- A short header packet extends to the end of the datagram. -/
def processShort (s : Receiver α γ) (remaining : Bytes) (addr : α)
    (ecn : Option UdpEcnCodepoint) : Except QuicError Unit × Receiver α γ :=
  match s.processPacket P E .applicationData .oneRtt remaining addr ecn with
  | (.ok (), s) =>
    let s := s.beginPeerPathValidation E addr
    if s.keys.state ≠ .draining ∧ s.keys.keys.oneRtt = none ∧
        s.isStatelessReset remaining = true then (.ok (), s.enterDraining E)
    else (.ok (), s)
  | (.error e, s) =>
    if s.isStatelessReset remaining then (.ok (), s.enterDraining E)
    else if shouldSilentlyDropProtectedPacket e then (.ok (), s)
    else (.error e, s)

def processNext (s : Receiver α γ) (remaining : Bytes) (addr : α)
    (ecn : Option UdpEcnCodepoint) : Advance × Receiver α γ :=
  match parseHeader remaining s.cidLen with
  | .error e =>
    if s.isStatelessReset remaining then (.done (.ok ()), s.enterDraining E)
    else (.done (.error e), s)
  | .ok (.long h) => s.processLong P R E h remaining addr ecn
  | .ok (.short _) =>
    let (result, s) := s.processShort P E remaining addr ecn
    (.done result, s)
  | .ok (.versionNegotiation supportedVersions) =>
    if s.keys.side = .client ∧ quicVersion1 ∉ supportedVersions then
      (.done (.error (.transport .internalError "server does not support QUIC v1")), s)
    else (.done (.ok ()), s)

/-- Process the packets of a datagram. No result means that the turns did not suffice. -/
def processPackets (addr : α) (ecn : Option UdpEcnCodepoint) :
    Nat → Receiver α γ → Bytes → Option (Except QuicError Unit × Receiver α γ)
  | _, s, [] => some (.ok (), s)
  | 0, _, _ :: _ => none
  | fuel + 1, s, b :: rest =>
    match s.processNext P R E (b :: rest) addr ecn with
    | (.done result, s) => some (result, s)
    | (.next remaining, s) => processPackets addr ecn fuel s remaining

/-! ## The loop ends -/

end Receiver

theorem longPacketEnd_range {cidLen stop : Nat} {remaining : Bytes} {h : LongHeader}
    (hparse : parseHeader remaining cidLen = .ok (.long h))
    (hstop : longPacketEnd h remaining = .ok stop) : 0 < stop ∧ stop ≤ remaining.length := by
  obtain ⟨hseven, hheader⟩ := parseHeader_long hparse
  have hfields : ∀ {fields : Except QuicError PacketFields},
      (∀ f, fields = .ok f → h.headerLen ≤ f.pnOffset) →
      (fields.map fun f => min (f.pnOffset + f.length) remaining.length) = .ok stop →
      0 < stop ∧ stop ≤ remaining.length := by
    intro fields hoffset hmap
    cases fields with
    | error e => cases hmap
    | ok f =>
      have hle := hoffset f rfl
      obtain rfl : min (f.pnOffset + f.length) remaining.length = stop := Except.ok.inj hmap
      omega
  unfold longPacketEnd at hstop
  split at hstop
  · exact hfields (fun _ => parseInitialFields_offset) hstop
  · exact hfields (fun _ => parseLengthField_offset) hstop
  · exact hfields (fun _ => parseLengthField_offset) hstop
  · cases hstop
    omega

namespace Receiver

variable {α : Type u} {γ : Type v} [DecidableEq α] (P : PacketProtection) (R : RetryIntegrity)
  (E : ReceiveEnv α γ)

variable {s t : Receiver α γ} {remaining left : Bytes} {ecn : Option UdpEcnCodepoint}

variable {P R E} in
theorem processLongPacket_next {space : PacketNumberSpace}
    {kind : ReceivedPacketKind} {stop : Nat} {addr : α}
    (h : s.processLongPacket P E space kind remaining stop addr ecn = (.next left, t)) :
    left = remaining.drop stop := by
  grind [processLongPacket]

variable {P R E} in
theorem processNext_next {addr : α} (h : s.processNext P R E remaining addr ecn = (.next left, t)) :
    ∃ stop, 0 < stop ∧ stop ≤ remaining.length ∧ left = remaining.drop stop := by
  unfold processNext at h
  split at h
  · split at h <;> cases h
  · next header hparse =>
    unfold processLong at h
    split at h
    · cases h
    · split at h
      · cases h
      · next stop hstop =>
        obtain ⟨hpos, hle⟩ := longPacketEnd_range hparse hstop
        exact ⟨stop, hpos, hle, processLongPacket_next h⟩
  · cases h
  · split at h <;> cases h

theorem processPackets_isSome {fuel : Nat} (s : Receiver α γ) (remaining : Bytes) (addr : α)
    (ecn : Option UdpEcnCodepoint) (h : remaining.length ≤ fuel) :
    (processPackets P R E addr ecn fuel s remaining).isSome := by
  induction fuel generalizing s remaining with
  | zero =>
    cases remaining with
    | nil => rfl
    | cons b rest => cases h
  | succ fuel ih =>
    cases remaining with
    | nil => rfl
    | cons b rest =>
      grind [processPackets, processNext_next]

def processDatagramFromWithEcn (s : Receiver α γ) (data : Bytes) (addr : α)
    (ecn : Option UdpEcnCodepoint) : Except QuicError Unit × Receiver α γ :=
  let s := { s with paths := s.paths.recordUnvalidatedBytesReceived addr data.length }
  (processPackets P R E addr ecn data.length s data).get
    (processPackets_isSome P R E s data addr ecn (Nat.le_refl _))

end Receiver

end Starfish.Quic
