import Starfish.Quic.Connection.Streams
import Starfish.Quic.Crypto.Protection

/-!
# Keys of a connection

The keys of the packet number spaces, how the handshake installs and discards them,
key updates in both directions, and Retry, which derives new Initial keys and starts
the packet numbers of the Initial space again.
-/

namespace Starfish.Quic

def Side.peer : Side → Side
  | .client => .server
  | .server => .client

structure DirectionalKeys where
  localKey : KeyId
  remoteKey : KeyId
  localHeader : KeyId
  remoteHeader : KeyId
deriving DecidableEq, Repr

/-- The keys that come from one source, as `side` uses them. -/
def DirectionalKeys.derive (source : KeySource) (side : Side) : DirectionalKeys :=
  ⟨⟨source, side⟩, ⟨source, side.peer⟩, ⟨source, side⟩, ⟨source, side.peer⟩⟩

structure PacketKeys where
  initial : Option DirectionalKeys := none
  handshake : Option DirectionalKeys := none
  zeroRttLocal : Option KeyId := none
  zeroRttRemote : Option KeyId := none
  oneRtt : Option DirectionalKeys := none
deriving DecidableEq, Repr

namespace PacketKeys

def get (keys : PacketKeys) : PacketNumberSpace → Option DirectionalKeys
  | .initial => keys.initial
  | .handshake => keys.handshake
  | .applicationData => keys.oneRtt

def set (keys : PacketKeys) (space : PacketNumberSpace) (new : Option DirectionalKeys) :
    PacketKeys :=
  match space with
  | .initial => { keys with initial := new }
  | .handshake => { keys with handshake := new }
  | .applicationData => { keys with oneRtt := new }

def setZeroRtt (keys : PacketKeys) (side : Side) : PacketKeys :=
  match side with
  | .client => { keys with zeroRttLocal := some ⟨.zeroRtt, .client⟩, zeroRttRemote := none }
  | .server => { keys with zeroRttRemote := some ⟨.zeroRtt, .client⟩, zeroRttLocal := none }

def discardZeroRtt (keys : PacketKeys) : PacketKeys :=
  { keys with zeroRttLocal := none, zeroRttRemote := none }

def discard (keys : PacketKeys) (space : PacketNumberSpace) : PacketKeys := keys.set space none

end PacketKeys

/-- The secrets of later key generations; `generation` is the next one. -/
structure Secrets where
  install : Nat
  generation : Nat
deriving DecidableEq, Repr

structure PendingRemoteKeyUpdate where
  keyPhase : Bool
  remote : KeyId
deriving DecidableEq, Repr

inductive KeyChange
  | handshake (install : Nat)
  | oneRtt (install : Nat)
deriving DecidableEq, Repr

/-- The part of a connection that decides under which key and number a packet is sealed
or opened. -/
structure KeyState where
  side : Side
  state : ConnectionState := .initial
  originalDcid : ConnectionId
  keys : PacketKeys
  nextPn : PacketNumberSpace → Nat := fun _ => 0
  nextSecrets : Option Secrets := none
  localKeyPhase : Bool := false
  remoteKeyPhase : Bool := false
  pendingRemoteKeyUpdate : Option PendingRemoteKeyUpdate := none
  keyUpdatePn : Nat := 0
  deferredKeyDiscards : List PacketNumberSpace := []
  rememberedPeerTransportParameters : Bool := false
  attemptedZeroRtt : Bool := false
  peerCid : ConnectionId
  retryReceived : Bool := false
  retryToken : Bytes := []
  expectedRetrySourceConnectionId : Option ConnectionId := none

namespace KeyState

def newClient (remoteCid : ConnectionId) : KeyState where
  side := .client
  originalDcid := remoteCid
  keys := { initial := some (.derive (.initial remoteCid.bytes) .client) }
  peerCid := remoteCid

/-- Initial keys of a server come from the connection ID of the Initial packet that created
the connection; after a Retry this is not the original one. -/
def newServer (initialDcid : Bytes) (originalDcid remoteCid : ConnectionId) : KeyState where
  side := .server
  originalDcid := originalDcid
  keys := { initial := some (.derive (.initial initialDcid) .server) }
  peerCid := remoteCid

def setNextPn (s : KeyState) (space : PacketNumberSpace) (pn : Nat) : KeyState :=
  { s with nextPn := fun other => if other = space then pn else s.nextPn other }

/-! ## Key changes of the handshake -/

def installKeys (s : KeyState) : KeyChange → KeyState
  | .handshake install =>
    { s with
      keys := s.keys.set .handshake (some (.derive (.handshake install) s.side))
      deferredKeyDiscards := s.deferredKeyDiscards ++ [.initial]
      state := if s.state = .initial then .handshake else s.state }
  | .oneRtt install =>
    { s with
      keys := s.keys.set .applicationData (some (.derive (.oneRtt install 0) s.side))
      nextSecrets := some ⟨install, 1⟩
      localKeyPhase := false
      remoteKeyPhase := false
      pendingRemoteKeyUpdate := none
      keyUpdatePn := 0
      state := .connected
      deferredKeyDiscards :=
        if s.side = .client then s.deferredKeyDiscards ++ [.handshake]
        else s.deferredKeyDiscards }

def hasZeroRtt (s : KeyState) : Bool :=
  match s.side with
  | .client => s.keys.zeroRttLocal.isSome
  | .server => s.keys.zeroRttRemote.isSome

def discardZeroRtt (s : KeyState) : KeyState := { s with keys := s.keys.discardZeroRtt }

def refreshZeroRttKeys (s : KeyState) (tlsHasKeys : Bool) : KeyState :=
  if s.side = .client ∧ s.keys.oneRtt.isSome then s.discardZeroRtt
  else if !s.hasZeroRtt && tlsHasKeys &&
      (decide (s.side = .server) || s.rememberedPeerTransportParameters) then
    { s with keys := s.keys.setZeroRtt s.side }
  else s

def discardSpaceKeys (s : KeyState) (space : PacketNumberSpace) : KeyState :=
  { s with keys := s.keys.discard space }

def processDeferredKeyDiscards (s : KeyState) : KeyState :=
  { s with
    keys := s.deferredKeyDiscards.foldl PacketKeys.discard s.keys
    deferredKeyDiscards := [] }

def canSendZeroRtt (s : KeyState) : Bool :=
  decide (s.side = .client) && s.keys.zeroRttLocal.isSome && s.keys.oneRtt.isNone &&
    s.rememberedPeerTransportParameters

def applicationSendKind (s : KeyState) : Option ApplicationPacketKind :=
  if s.keys.oneRtt.isSome then some .oneRtt
  else if s.canSendZeroRtt then some .zeroRtt
  else none

/-! ## Key updates -/

def nextPacketKeys (s : KeyState) (secrets : Secrets) : (KeyId × KeyId) × KeyState :=
  let source := KeySource.oneRtt secrets.install secrets.generation
  ((⟨source, s.side⟩, ⟨source, s.side.peer⟩),
    { s with nextSecrets := some ⟨secrets.install, secrets.generation + 1⟩ })

def setLocalKey (s : KeyState) (key : KeyId) : KeyState :=
  { s with keys := { s.keys with oneRtt := s.keys.oneRtt.map fun k => { k with localKey := key } } }

def setRemoteKey (s : KeyState) (key : KeyId) : KeyState :=
  { s with keys := { s.keys with oneRtt := s.keys.oneRtt.map fun k => { k with remoteKey := key } } }

def setPhases (s : KeyState) (localPhase remotePhase : Bool)
    (pending : Option PendingRemoteKeyUpdate) (pn : Nat) : KeyState :=
  { s with
    localKeyPhase := localPhase
    remoteKeyPhase := remotePhase
    pendingRemoteKeyUpdate := pending
    keyUpdatePn := pn }

def initiateKeyUpdate (s : KeyState) : Bool × KeyState :=
  match s.nextSecrets with
  | none => (false, s)
  | some secrets =>
    if s.keys.oneRtt.isNone ∨ s.pendingRemoteKeyUpdate.isSome then (false, s)
    else
      let next := s.nextPacketKeys secrets
      let targetPhase := !s.localKeyPhase
      (true, (next.2.setLocalKey next.1.1).setPhases targetPhase s.remoteKeyPhase
        (some ⟨targetPhase, next.1.2⟩) s.keyUpdatePn)

variable (P : PacketProtection)

def completeKeyUpdate (s : KeyState) (pending : PendingRemoteKeyUpdate) (pn : Nat) : KeyState :=
  (s.setRemoteKey pending.remote).setPhases s.localKeyPhase pending.keyPhase none pn

def followKeyUpdate (s : KeyState) (next : KeyId × KeyId) (recvKeyPhase : Bool) (pn : Nat) :
    KeyState :=
  ((s.setLocalKey next.1).setRemoteKey next.2).setPhases recvKeyPhase recvKeyPhase none pn

/-- Open a 1-RTT packet whose key phase differs from the current one. The next secrets
advance before the packet is known to be authentic. -/
def tryDecryptWithNextKeys (s : KeyState) (pn : Nat) (recvKeyPhase : Bool)
    (header ciphertext : Bytes) : Except QuicError Bytes × KeyState :=
  if pn < s.keyUpdatePn then (.error (.invalidPacket "stale key phase packet"), s)
  else
    match s.pendingRemoteKeyUpdate.filter fun update => update.keyPhase == recvKeyPhase with
    | some pending =>
      match P.decryptPacket pn header ciphertext pending.remote with
      | .error e => (.error e, s)
      | .ok plaintext => (.ok plaintext, s.completeKeyUpdate pending pn)
    | none =>
      match s.nextSecrets with
      | none => (.error (.transport .keyUpdateError "no next secrets available"), s)
      | some secrets =>
        let next := s.nextPacketKeys secrets
        match P.decryptPacket pn header ciphertext next.1.2 with
        | .error e => (.error e, next.2)
        | .ok plaintext => (.ok plaintext, next.2.followKeyUpdate next.1 recvKeyPhase pn)

end KeyState

/-! ## Retry -/

def retryIntegrityTagLen : Nat := 16

/-- The integrity tag of RFC 9001, section 5.8, computed with a public key. -/
structure RetryIntegrity where
  computeTag : ConnectionId → Bytes → Except QuicError Bytes

def RetryIntegrity.verifyTag (R : RetryIntegrity) (originalDcid : ConnectionId) (packet : Bytes) :
    Except QuicError Bool :=
  if packet.length < retryIntegrityTagLen then .ok false
  else
    let tagStart := packet.length - retryIntegrityTagLen
    (R.computeTag originalDcid (packet.take tagStart)).map fun tag => packet.drop tagStart == tag

def parseRetryToken (buf : Bytes) (headerLen : Nat) : Except QuicError Bytes :=
  if buf.length < headerLen + retryIntegrityTagLen then
    .error (.invalidPacket "retry packet too short for integrity tag")
  else .ok (slice buf headerLen (buf.length - retryIntegrityTagLen))

namespace KeyState

variable (R : RetryIntegrity)

def checkRetry (s : KeyState) (data : Bytes) (header : LongHeader) :
    Except QuicError (Option Bytes) :=
  if s.side ≠ .client then .ok none
  else if s.retryReceived then .ok none
  else
    match R.verifyTag s.originalDcid data with
    | .error e => .error e
    | .ok false => .error (.invalidPacket "retry integrity tag validation failed")
    | .ok true =>
      match parseRetryToken data header.headerLen with
      | .error e => .error e
      | .ok [] => .error (.invalidPacket "retry packet has empty token")
      | .ok token => .ok (some token)

def restartInitial (s : KeyState) (token : Bytes) (scid : ConnectionId) : KeyState :=
  { s.setNextPn .initial 0 with
    retryToken := token
    retryReceived := true
    expectedRetrySourceConnectionId := some scid
    peerCid := scid
    keys := s.keys.set .initial (some (.derive (.initial scid.bytes) .client)) }

def processRetry (s : KeyState) (data : Bytes) (header : LongHeader) :
    Except QuicError Unit × KeyState :=
  match s.checkRetry R data header with
  | .error e => (.error e, s)
  | .ok none => (.ok (), s)
  | .ok (some token) => (.ok (), s.restartInitial token header.scid)

end KeyState

end Starfish.Quic
