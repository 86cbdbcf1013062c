import Starfish.Lib.Loop
import Starfish.Lib.Run
import Starfish.Quic.Packet.Header

/-!
# Connection identifiers (RFC 9000, section 5.1)

Each side issues identifiers for the other to address it by, and either side retires them. The
manager keeps the identifiers we have issued and those of the peer, one of which is the active
one that our packets are sent to. A NEW_CONNECTION_ID frame of the peer may ask us to retire all
identifiers below a sequence number; frames are reordered, so an identifier may arrive after it
has been retired. An index out of range makes the source panic, which is `none` here.
-/

namespace Starfish.Quic

structure IssuedConnectionId where
  sequenceNumber : Nat
  cid : ConnectionId
  statelessResetToken : Option Bytes
  retired : Bool
  advertisedToPeer : Bool
deriving DecidableEq

def IssuedConnectionId.retire (entry : IssuedConnectionId) : IssuedConnectionId :=
  { entry with retired := true }

structure ConnectionIdManager where
  issued : List IssuedConnectionId
  peer : List IssuedConnectionId
  activePeerCidIndex : Nat
  nextSequence : Nat
  cidLen : Nat
  maxPeerRetirePriorTo : Nat
deriving DecidableEq

/-- The random identifier and token of a new connection identifier. -/
abbrev CidDraw := ConnectionId × Bytes

namespace ConnectionIdManager

def pruneRetiredLocalCids (m : ConnectionIdManager) : ConnectionIdManager :=
  { m with issued := m.issued.filter (!·.retired) }

def retirePeerCidsBelow (m : ConnectionIdManager) (retirePriorTo : Nat) : ConnectionIdManager :=
  { m with peer := m.peer.map fun entry =>
      if entry.sequenceNumber < retirePriorTo then entry.retire else entry }

def rotateAwayFromRetiredActivePeerCid (m : ConnectionIdManager) : Option ConnectionIdManager :=
  match m.peer[m.activePeerCidIndex]? with
  | none => none
  | some active =>
    if active.retired then
      match m.peer.findIdx? (!·.retired) with
      | some newIndex => some { m with activePeerCidIndex := newIndex }
      | none => some m
    else some m

def new (initialLocalCid initialPeerCid : ConnectionId) : ConnectionIdManager where
  issued := [⟨0, initialLocalCid, none, false, true⟩]
  peer := [⟨0, initialPeerCid, none, false, true⟩]
  activePeerCidIndex := 0
  nextSequence := 1
  cidLen := initialLocalCid.len
  maxPeerRetirePriorTo := 0

def issueNewCid (m : ConnectionIdManager) (draw : CidDraw) :
    IssuedConnectionId × ConnectionIdManager :=
  let entry : IssuedConnectionId := ⟨m.nextSequence, draw.1, some draw.2, false, false⟩
  (entry, { m with nextSequence := m.nextSequence + 1, issued := m.issued ++ [entry] })

def registerPeerCid (m : ConnectionIdManager) (sequenceNumber : Nat) (cid : ConnectionId)
    (statelessResetToken : Bytes) : Option (Except QuicError Unit × ConnectionIdManager) :=
  match m.peer.findIdx? (·.sequenceNumber == sequenceNumber) with
  | some existingIndex =>
    match m.peer[existingIndex]? with
    | none => none
    | some existing =>
      if existing.cid ≠ cid ∨ existing.statelessResetToken ≠ some statelessResetToken then
        some (.error (.transport .protocolViolation
          s!"NEW_CONNECTION_ID sequence {sequenceNumber} conflicts with existing CID"), m)
      else
        let m := if sequenceNumber < m.maxPeerRetirePriorTo then
          { m with peer := m.peer.set existingIndex existing.retire } else m
        m.rotateAwayFromRetiredActivePeerCid.map fun m => (.ok (), m)
  | none =>
    let entry : IssuedConnectionId := ⟨sequenceNumber, cid, some statelessResetToken,
      decide (sequenceNumber < m.maxPeerRetirePriorTo), true⟩
    let m := { m with peer := m.peer ++ [entry] }
    m.rotateAwayFromRetiredActivePeerCid.map fun m => (.ok (), m)

def addPeerCid (m : ConnectionIdManager) (sequenceNumber : Nat) (cid : ConnectionId)
    (statelessResetToken : Bytes) (retirePriorTo : Nat) :
    Option (Except QuicError Unit × ConnectionIdManager) :=
  let retirePriorTo := max m.maxPeerRetirePriorTo retirePriorTo
  let m := { m with maxPeerRetirePriorTo := retirePriorTo }.retirePeerCidsBelow retirePriorTo
  m.registerPeerCid sequenceNumber cid statelessResetToken

/-- The peer retires an identifier of ours. The last one is replaced at once. -/
def retireLocalCid (m : ConnectionIdManager) (sequenceNumber : Nat) (draw : CidDraw) :
    ConnectionIdManager :=
  let retire (entry : IssuedConnectionId) : IssuedConnectionId :=
    if entry.sequenceNumber = sequenceNumber then entry.retire else entry
  let m := { m with issued := m.issued.map retire }.pruneRetiredLocalCids
  if m.issued.isEmpty then (m.issueNewCid draw).2 else m

def activePeerCid (m : ConnectionIdManager) : Option ConnectionId :=
  (m.peer[m.activePeerCidIndex]?).map (·.cid)

def maxBySequence (best : Option (IssuedConnectionId × Nat)) (x : IssuedConnectionId × Nat) :
    Option (IssuedConnectionId × Nat) :=
  match best with
  | none => some x
  | some b => if b.1.sequenceNumber ≤ x.1.sequenceNumber then some x else some b

/-- Go over to another identifier of the peer that is not retired, if there is one. -/
def rotateActivePeerCid (m : ConnectionIdManager) : Bool × ConnectionIdManager :=
  let others := m.peer.zipIdx.filter fun x => x.2 ≠ m.activePeerCidIndex && !x.1.retired
  match others.foldl maxBySequence none with
  | some (_, newIndex) => (true, { m with activePeerCidIndex := newIndex })
  | none => (false, m)

def setPeerCid (m : ConnectionIdManager) (cid : ConnectionId) : Option ConnectionIdManager :=
  (m.peer[m.activePeerCidIndex]?).map fun entry =>
    let entry := { entry with cid := cid }
    { m with peer := m.peer.set m.activePeerCidIndex entry }

def setPrimaryLocalStatelessResetToken (m : ConnectionIdManager) (token : Bytes) :
    Option ConnectionIdManager :=
  (m.issued[0]?).map fun entry =>
    let entry := { entry with statelessResetToken := some token }
    { m with issued := m.issued.set 0 entry }

def setActivePeerStatelessResetToken (m : ConnectionIdManager) (token : Bytes) :
    Option ConnectionIdManager :=
  (m.peer[m.activePeerCidIndex]?).map fun entry =>
    let entry := { entry with statelessResetToken := some token }
    { m with peer := m.peer.set m.activePeerCidIndex entry }

def activeLocalCidCount (m : ConnectionIdManager) : Nat := (m.issued.filter (!·.retired)).length

/-- The smallest sequence number that is still active. -/
def localRetirePriorTo (m : ConnectionIdManager) : Nat :=
  (((m.issued.filter (!·.retired)).map (·.sequenceNumber)).min?).getD 0

/-- The identifiers that still have to be sent to the peer. -/
def takeUnadvertisedLocalCids (m : ConnectionIdManager) :
    List IssuedConnectionId × ConnectionIdManager :=
  let unadvertised (entry : IssuedConnectionId) : Bool := !entry.retired && !entry.advertisedToPeer
  let advertise (entry : IssuedConnectionId) : IssuedConnectionId :=
    { entry with advertisedToPeer := true }
  ((m.issued.filter unadvertised).map advertise,
    { m with issued := m.issued.map fun entry =>
        if unadvertised entry then advertise entry else entry }.pruneRetiredLocalCids)

def drainTurn (activeSeq : Nat) (acc : List Nat × List IssuedConnectionId × Nat)
    (entry : IssuedConnectionId) : List Nat × List IssuedConnectionId × Nat :=
  if entry.retired && entry.sequenceNumber != activeSeq then
    (acc.1 ++ [entry.sequenceNumber], acc.2)
  else
    (acc.1, acc.2.1 ++ [entry],
      if entry.sequenceNumber = activeSeq then acc.2.1.length else acc.2.2)

def takePeerCidsToRetire (m : ConnectionIdManager) : Option (List Nat × ConnectionIdManager) :=
  (m.peer[m.activePeerCidIndex]?).map fun active =>
    let drained := m.peer.foldl (drainTurn active.sequenceNumber) ([], [], 0)
    (drained.1, { m with peer := drained.2.1, activePeerCidIndex := drained.2.2 })

/-! ## The connection's use of the manager -/

def issueTurn (target : Nat) (draw : Nat → CidDraw) (m : ConnectionIdManager) :
    ConnectionIdManager ⊕ ConnectionIdManager :=
  if m.activeLocalCidCount < target then .inl (m.issueNewCid (draw m.nextSequence)).2 else .inr m

def newConnectionIdFrame (retirePriorTo : Nat) (entry : IssuedConnectionId) : Option Frame :=
  entry.statelessResetToken.map fun token =>
    .newConnectionId entry.sequenceNumber (min retirePriorTo entry.sequenceNumber) entry.cid.bytes
      token

/-- The frames about identifiers that are due. -/
def generateConnectionIdUpdates (m : ConnectionIdManager) (parametersApplied connected : Bool)
    (peerActiveConnectionIdLimit : Nat) (draw : Nat → CidDraw) :
    Option (List Frame × ConnectionIdManager) :=
  if !parametersApplied || !connected || m.cidLen == 0 then some ([], m)
  else
    let target := min peerActiveConnectionIdLimit 2
    match Loop.run (issueTurn target draw) (target + 1) m with
    | none => none
    | some m =>
      match m.takePeerCidsToRetire with
      | none => none
      | some (retire, m) =>
        let retirePriorTo := m.localRetirePriorTo
        let (entries, m) := m.takeUnadvertisedLocalCids
        some (retire.map .retireConnectionId ++
          entries.filterMap (newConnectionIdFrame retirePriorTo), m)

def processNewConnectionId (m : ConnectionIdManager) (sequenceNumber retirePriorTo : Nat)
    (connectionId statelessResetToken : Bytes) :
    Option (Except QuicError Unit × ConnectionIdManager) :=
  if sequenceNumber < retirePriorTo then
    some (.error (.transport .frameEncodingError
      s!"NEW_CONNECTION_ID retire_prior_to {retirePriorTo} exceeds sequence {sequenceNumber}"), m)
  else if connectionId.length < 1 ∨ maxCidLen < connectionId.length then
    some (.error (.transport .frameEncodingError
      s!"NEW_CONNECTION_ID invalid connection ID length {connectionId.length}"), m)
  else m.addPeerCid sequenceNumber (.fromSlice connectionId) statelessResetToken retirePriorTo

end ConnectionIdManager

end Starfish.Quic
