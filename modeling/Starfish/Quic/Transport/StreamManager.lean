import Starfish.Lib.OrdMap
import Starfish.Quic.Transport.FlowControl
import Mathlib.Data.List.Sort

/-!
# Stream table (RFC 9000, section 3)

Every stream has a send part and a receive part, either of which may be absent.
Streams of the peer come into existence when a frame first names them, together
with all lower-numbered streams of the same class.
-/

namespace Starfish.Quic

inductive Side
  | client
  | server
deriving DecidableEq, Repr

inductive StreamDirection
  | bidirectional
  | unidirectional
deriving DecidableEq, Repr

def StreamDirection.debug : StreamDirection → String
  | .bidirectional => "Bidirectional"
  | .unidirectional => "Unidirectional"

inductive StreamInitiator
  | client
  | server
deriving DecidableEq, Repr

inductive SendState
  | ready
  | send
  | dataSent
  | resetSent
  | dataRecvd
  | resetRecvd
deriving DecidableEq, Repr

inductive RecvState
  | recv
  | sizeKnown
  | dataRecvd
  | resetRecvd
  | dataRead
  | resetRead
deriving DecidableEq, Repr

structure StreamState where
  id : Nat
  send : Option SendState
  recv : Option RecvState
  flowControl : StreamFlowControl
  recvBuf : OrdMap Bytes
  recvOffset : Nat
  finalSize : Option Nat
  resetErrorCode : Option Nat
  sendOffset : Nat
  finSent : Bool
  ackedSendRanges : List (Nat × Nat)
  finAcked : Bool
deriving DecidableEq

namespace StreamState

def new (id : Nat) (direction : StreamDirection) (isLocal : Bool)
    (initialSendMax initialRecvMax : Nat) : StreamState where
  id := id
  send := match direction with
    | .bidirectional => some .ready
    | .unidirectional => if isLocal then some .ready else none
  recv := match direction with
    | .bidirectional => some .recv
    | .unidirectional => if isLocal then none else some .recv
  flowControl := FlowControl.new initialSendMax initialRecvMax
  recvBuf := OrdMap.empty
  recvOffset := 0
  finalSize := none
  resetErrorCode := none
  sendOffset := 0
  finSent := false
  ackedSendRanges := []
  finAcked := false

/-- Merge ranges in ascending order of their starts into the range `current`. -/
def mergeRanges (current : Nat × Nat) : List (Nat × Nat) → List (Nat × Nat)
  | [] => [current]
  | range :: rest =>
    if range.1 ≤ current.2 then mergeRanges (current.1, max current.2 range.2) rest
    else current :: mergeRanges range rest

def mergeSortedRanges : List (Nat × Nat) → List (Nat × Nat)
  | [] => []
  | range :: rest => mergeRanges range rest

def acknowledgeSentData (st : StreamState) (offset len : Nat) (fin : Bool) : StreamState :=
  let st :=
    if offset < offset + len then
      let ranges := (st.ackedSendRanges ++ [(offset, offset + len)]).insertionSort
        fun a b => a.1 ≤ b.1
      { st with ackedSendRanges := mergeSortedRanges ranges }
    else st
  if fin then { st with finAcked := true } else st

def rangesCover (sendOffset : Nat) : Nat → List (Nat × Nat) → Bool
  | _, [] => false
  | coveredEnd, range :: rest =>
    if coveredEnd < range.1 then false
    else if sendOffset ≤ max coveredEnd range.2 then true
    else rangesCover sendOffset (max coveredEnd range.2) rest

def allSentDataAcked (st : StreamState) : Bool :=
  if !st.finSent || !st.finAcked then false
  else if st.sendOffset = 0 then true
  else rangesCover st.sendOffset 0 st.ackedSendRanges

end StreamState

def streamInitiator (id : Nat) : StreamInitiator :=
  if id % 2 = 0 then .client else .server

def streamDirection (id : Nat) : StreamDirection :=
  if id / 2 % 2 = 0 then .bidirectional else .unidirectional

structure StreamManager where
  streams : OrdMap StreamState
  side : Side
  nextBidiId : Nat
  nextUniId : Nat
  maxBidiStreams : Nat
  maxUniStreams : Nat
  bidiOpened : Nat
  uniOpened : Nat
  localMaxBidiStreams : Nat
  localMaxUniStreams : Nat
  advertisedLocalMaxBidiStreams : Nat
  advertisedLocalMaxUniStreams : Nat
  remoteBidiOpened : Nat
  remoteUniOpened : Nat
  localBidiLocalRecvMax : Nat
  localBidiRemoteRecvMax : Nat
  localUniRecvMax : Nat
  peerBidiLocalSendMax : Nat
  peerBidiRemoteSendMax : Nat
  peerUniSendMax : Nat
deriving DecidableEq

namespace StreamManager

def new (side : Side) (maxBidi maxUni initialFlow : Nat) : StreamManager where
  streams := OrdMap.empty
  side := side
  nextBidiId := match side with | .client => 0 | .server => 1
  nextUniId := match side with | .client => 2 | .server => 3
  maxBidiStreams := maxBidi
  maxUniStreams := maxUni
  bidiOpened := 0
  uniOpened := 0
  localMaxBidiStreams := maxBidi
  localMaxUniStreams := maxUni
  advertisedLocalMaxBidiStreams := maxBidi
  advertisedLocalMaxUniStreams := maxUni
  remoteBidiOpened := 0
  remoteUniOpened := 0
  localBidiLocalRecvMax := initialFlow
  localBidiRemoteRecvMax := initialFlow
  localUniRecvMax := initialFlow
  peerBidiLocalSendMax := initialFlow
  peerBidiRemoteSendMax := initialFlow
  peerUniSendMax := initialFlow

def isLocalInitiated (m : StreamManager) (id : Nat) : Bool :=
  match m.side, streamInitiator id with
  | .client, .client | .server, .server => true
  | _, _ => false

def remoteStreamBase (m : StreamManager) (direction : StreamDirection) : Nat :=
  match m.side, direction with
  | .client, .bidirectional => 1
  | .client, .unidirectional => 3
  | .server, .bidirectional => 0
  | .server, .unidirectional => 2

def initialLimitsForStream (m : StreamManager) (id : Nat) (isLocal : Bool) : Nat × Nat :=
  match streamDirection id, isLocal with
  | .bidirectional, true => (m.peerBidiRemoteSendMax, m.localBidiLocalRecvMax)
  | .bidirectional, false => (m.peerBidiLocalSendMax, m.localBidiRemoteRecvMax)
  | .unidirectional, true => (m.peerUniSendMax, 0)
  | .unidirectional, false => (0, m.localUniRecvMax)

def get (m : StreamManager) (id : Nat) : Option StreamState := m.streams.find? id

/-- Write a stream back after changing it through a mutable reference. -/
def set (m : StreamManager) (id : Nat) (st : StreamState) : StreamManager :=
  { m with streams := m.streams.insert id st }

def applyPeerInitialLimits (m : StreamManager)
    (bidiLocalSendMax bidiRemoteSendMax uniSendMax maxBidi maxUni : Nat) : StreamManager :=
  let m := { m with
    peerBidiLocalSendMax := bidiLocalSendMax
    peerBidiRemoteSendMax := bidiRemoteSendMax
    peerUniSendMax := uniSendMax
    maxBidiStreams := maxBidi
    maxUniStreams := maxUni }
  let sendMaxOf (id : Nat) : Nat :=
    match streamDirection id, m.isLocalInitiated id with
    | .bidirectional, true => bidiRemoteSendMax
    | .bidirectional, false => bidiLocalSendMax
    | .unidirectional, true => uniSendMax
    | .unidirectional, false => 0
  { m with streams := m.streams.map fun id st =>
      { st with flowControl := st.flowControl.setSendMax (sendMaxOf id) } }

def openBidi (m : StreamManager) : Except QuicError (Nat × StreamManager) :=
  if m.maxBidiStreams ≤ m.bidiOpened then
    .error (.transport .streamLimitError "bidirectional stream limit reached")
  else
    let id := m.nextBidiId
    let st := StreamState.new id .bidirectional true m.peerBidiRemoteSendMax
      m.localBidiLocalRecvMax
    .ok (id, { m with
      nextBidiId := m.nextBidiId + 4
      bidiOpened := m.bidiOpened + 1
      streams := m.streams.insert id st })

def openUni (m : StreamManager) : Except QuicError (Nat × StreamManager) :=
  if m.maxUniStreams ≤ m.uniOpened then
    .error (.transport .streamLimitError "unidirectional stream limit reached")
  else
    let id := m.nextUniId
    let st := StreamState.new id .unidirectional true m.peerUniSendMax 0
    .ok (id, { m with
      nextUniId := m.nextUniId + 4
      uniOpened := m.uniOpened + 1
      streams := m.streams.insert id st })

def openRemote (m : StreamManager) (direction : StreamDirection) (base first count : Nat) :
    OrdMap StreamState :=
  (List.range' first count).foldl
    (fun streams index =>
      let id := base + index * 4
      let limits := m.initialLimitsForStream id false
      streams.insert id (StreamState.new id direction false limits.1 limits.2))
    m.streams

def remoteLimit (m : StreamManager) : StreamDirection → Nat
  | .bidirectional => m.localMaxBidiStreams
  | .unidirectional => m.localMaxUniStreams

def remoteOpened (m : StreamManager) : StreamDirection → Nat
  | .bidirectional => m.remoteBidiOpened
  | .unidirectional => m.remoteUniOpened

def setRemoteOpened (m : StreamManager) (direction : StreamDirection) (n : Nat) : StreamManager :=
  match direction with
  | .bidirectional => { m with remoteBidiOpened := n }
  | .unidirectional => { m with remoteUniOpened := n }

def openRemoteUpTo (m : StreamManager) (direction : StreamDirection) (opened : Nat) :
    StreamManager :=
  let streams := m.openRemote direction (m.remoteStreamBase direction) (m.remoteOpened direction)
    (opened - m.remoteOpened direction)
  { m with streams := streams }.setRemoteOpened direction opened

def acceptStream (m : StreamManager) (id : Nat) : Except QuicError StreamManager :=
  if (m.get id).isSome then .ok m
  else if m.isLocalInitiated id then
    .error (.transport .streamStateError s!"stream {id} is locally initiated")
  else
    let direction := streamDirection id
    let base := m.remoteStreamBase direction
    if id % 4 ≠ base % 4 then
      .error (.transport .streamStateError
        s!"stream {id} does not match remote {direction.debug} stream numbering")
    else if id < base then
      .error (.transport .streamStateError
        s!"stream {id} is below remote {direction.debug} stream base {base}")
    else
      let opened := (id - base) / 4 + 1
      let limit := m.remoteLimit direction
      let alreadyOpened := m.remoteOpened direction
      if limit < opened then
        .error (.transport .streamLimitError
          s!"stream {id} exceeds remote {direction.debug} stream limit {limit}")
      else if opened ≤ alreadyOpened then .ok m
      else .ok (m.openRemoteUpTo direction opened)

def isClosed (st : StreamState) : Bool :=
  let sendDone := match st.send with
    | some .dataRecvd | some .resetRecvd | none => true
    | _ => false
  let recvDone := match st.recv with
    | some .dataRead | some .resetRead | none => true
    | _ => false
  sendDone && recvDone

def updateMaxBidiStreams (m : StreamManager) (limit : Nat) : StreamManager :=
  if m.maxBidiStreams < limit then { m with maxBidiStreams := limit } else m

def updateMaxUniStreams (m : StreamManager) (limit : Nat) : StreamManager :=
  if m.maxUniStreams < limit then { m with maxUniStreams := limit } else m

def takeMaxStreamsUpdates (m : StreamManager) : (Option Nat × Option Nat) × StreamManager :=
  let bidi := if m.advertisedLocalMaxBidiStreams < m.localMaxBidiStreams then
    some m.localMaxBidiStreams else none
  let uni := if m.advertisedLocalMaxUniStreams < m.localMaxUniStreams then
    some m.localMaxUniStreams else none
  ((bidi, uni), { m with
    advertisedLocalMaxBidiStreams := bidi.getD m.advertisedLocalMaxBidiStreams
    advertisedLocalMaxUniStreams := uni.getD m.advertisedLocalMaxUniStreams })

def localMaxStreams (m : StreamManager) (bidirectional : Bool) : Nat :=
  if bidirectional then m.localMaxBidiStreams else m.localMaxUniStreams

def gcClosedStreams (m : StreamManager) : Nat × StreamManager :=
  let retired (direction : StreamDirection) : Nat :=
    (m.streams.entries.filter fun e =>
      isClosed e.2 && !m.isLocalInitiated e.1 && streamDirection e.1 == direction).length
  let streams := m.streams.filter fun _ st => !isClosed st
  (m.streams.entries.length - streams.entries.length, { m with
    streams := streams
    localMaxBidiStreams := saturatingAdd m.localMaxBidiStreams (retired .bidirectional)
    localMaxUniStreams := saturatingAdd m.localMaxUniStreams (retired .unidirectional) })

/-! ## Which streams exist -/

def IsFresh (sid : Nat) (st : StreamState) : Prop :=
  ∃ direction isLocal sendMax recvMax, st = StreamState.new sid direction isLocal sendMax recvMax

def localOpened (m : StreamManager) : StreamDirection → Nat
  | .bidirectional => m.bidiOpened
  | .unidirectional => m.uniOpened

def openedCount (m : StreamManager) (id : Nat) : Nat :=
  if m.isLocalInitiated id then m.localOpened (streamDirection id)
  else m.remoteOpened (streamDirection id)

def localStreamBase (side : Side) (direction : StreamDirection) : Nat :=
  match side, direction with
  | .client, .bidirectional => 0
  | .client, .unidirectional => 2
  | .server, .bidirectional => 1
  | .server, .unidirectional => 3

theorem localStreamBase_lt (side : Side) (direction : StreamDirection) :
    localStreamBase side direction < 4 := by
  cases side <;> cases direction <;> decide

structure Numbered (m : StreamManager) : Prop where
  nextBidi : m.nextBidiId = localStreamBase m.side .bidirectional + 4 * m.bidiOpened
  nextUni : m.nextUniId = localStreamBase m.side .unidirectional + 4 * m.uniOpened
  exists_iff : ∀ id, (m.get id).isSome ↔ id / 4 < m.openedCount id

theorem new_numbered (side : Side) (maxBidi maxUni initialFlow : Nat) :
    (new side maxBidi maxUni initialFlow).Numbered where
  nextBidi := by cases side <;> rfl
  nextUni := by cases side <;> rfl
  exists_iff := by
    intro id
    have hcount : (new side maxBidi maxUni initialFlow).openedCount id = 0 := by
      unfold openedCount localOpened remoteOpened
      split <;> split <;> rfl
    have hget : (new side maxBidi maxUni initialFlow).get id = none := rfl
    simp [hcount, hget]

@[simp] theorem get_set (m : StreamManager) (id : Nat) (st : StreamState) (j : Nat) :
    (m.set id st).get j = if j = id then some st else m.get j :=
  OrdMap.find?_insert _ _ _ _

variable {m : StreamManager} {id : Nat}

theorem Numbered.set (h : m.Numbered) (st : StreamState) (hid : (m.get id).isSome) :
    (m.set id st).Numbered where
  nextBidi := h.nextBidi
  nextUni := h.nextUni
  exists_iff := by
    intro j
    have hj := h.exists_iff j
    rw [get_set, show (m.set id st).openedCount j = m.openedCount j from rfl]
    grind

theorem remote_mod (hremote : m.isLocalInitiated id = false) :
    id % 4 = m.remoteStreamBase (streamDirection id) := by
  cases hside : m.side <;> by_cases h0 : id % 2 = 0 <;> by_cases h1 : id / 2 % 2 = 0 <;>
    simp [isLocalInitiated, remoteStreamBase, streamInitiator, streamDirection, hside, h0, h1]
      at hremote ⊢ <;>
    omega

theorem remoteStreamBase_lt (m : StreamManager) (direction : StreamDirection) :
    m.remoteStreamBase direction < 4 := by
  unfold remoteStreamBase
  split <;> decide

theorem class_congr {i j : Nat} (h : i % 4 = j % 4) :
    m.isLocalInitiated i = m.isLocalInitiated j ∧ streamDirection i = streamDirection j := by
  have h0 : i % 2 = j % 2 := by omega
  have h1 : i / 2 % 2 = j / 2 % 2 := by omega
  simp [isLocalInitiated, streamInitiator, streamDirection, h0, h1]

theorem localStreamBase_class (m : StreamManager) (direction : StreamDirection) (n : Nat) :
    m.isLocalInitiated (localStreamBase m.side direction + 4 * n) = true ∧
      streamDirection (localStreamBase m.side direction + 4 * n) = direction := by
  have hmod : (localStreamBase m.side direction + 4 * n) % 4 =
      localStreamBase m.side direction % 4 := by omega
  obtain ⟨hl, hd⟩ := class_congr (m := m) hmod
  rw [hl, hd]
  cases hside : m.side <;> cases direction <;>
    simp [isLocalInitiated, streamInitiator, streamDirection, localStreamBase, hside]

theorem eq_of_class_of_div {i j : Nat} (hl : m.isLocalInitiated i = m.isLocalInitiated j)
    (hd : streamDirection i = streamDirection j) (hdiv : i / 4 = j / 4) : i = j := by
  cases hside : m.side <;> by_cases h0 : i % 2 = 0 <;> by_cases h0' : j % 2 = 0 <;>
    by_cases h1 : i / 2 % 2 = 0 <;> by_cases h1' : j / 2 % 2 = 0 <;>
    simp [isLocalInitiated, streamInitiator, streamDirection, hside, h0, h0', h1, h1'] at hl hd <;>
    omega

/-! ## Accepting and opening streams -/

theorem openRemote_find? (m : StreamManager) (direction : StreamDirection) (base first count : Nat)
    (j : Nat) :
    ((∃ n, first ≤ n ∧ n < first + count ∧ j = base + n * 4) ∧
      (m.openRemote direction base first count).find? j =
        some (StreamState.new j direction false (m.initialLimitsForStream j false).1
          (m.initialLimitsForStream j false).2)) ∨
    ((∀ n, first ≤ n → n < first + count → j ≠ base + n * 4) ∧
      (m.openRemote direction base first count).find? j = m.streams.find? j) := by
  induction count with
  | zero =>
    refine Or.inr ⟨?_, rfl⟩
    intro n h1 h2
    omega
  | succ count ih =>
    have hlast : m.openRemote direction base first (count + 1) =
        (m.openRemote direction base first count).insert (base + (first + count) * 4)
          (StreamState.new (base + (first + count) * 4) direction false
            (m.initialLimitsForStream (base + (first + count) * 4) false).1
            (m.initialLimitsForStream (base + (first + count) * 4) false).2) := by
      simp [openRemote, List.range'_1_concat]
    rw [hlast, OrdMap.find?_insert]
    split
    · next hj =>
      subst hj
      exact Or.inl ⟨⟨first + count, by omega, by omega, rfl⟩, rfl⟩
    · next hj =>
      rcases ih with ⟨⟨n, h1, h2, rfl⟩, hfind⟩ | ⟨hnone, hfind⟩
      · exact Or.inl ⟨⟨n, h1, by omega, rfl⟩, hfind⟩
      · grind

def Creates (m m' : StreamManager) : Prop :=
  ∀ j, m'.get j = m.get j ∨ (m.get j = none ∧ ∃ st, m'.get j = some st ∧ IsFresh j st)

theorem Creates.refl (m : StreamManager) : m.Creates m := fun _ => Or.inl rfl

theorem openedCount_setRemoteOpened (streams : OrdMap StreamState) (direction : StreamDirection)
    (n j : Nat) :
    ({ m with streams := streams }.setRemoteOpened direction n).openedCount j =
      if m.isLocalInitiated j = false ∧ streamDirection j = direction then n
      else m.openedCount j := by
  cases direction <;> cases hl : m.isLocalInitiated j <;> cases hd : streamDirection j <;>
    simp_all [openedCount, setRemoteOpened, remoteOpened, localOpened, isLocalInitiated]

variable {m' : StreamManager}

theorem acceptStream_cases (h : m.acceptStream id = .ok m') :
    ((m.get id).isSome ∧ m' = m) ∨
    (m.isLocalInitiated id = false ∧ id / 4 < m.remoteOpened (streamDirection id) ∧ m' = m) ∨
    (m.isLocalInitiated id = false ∧ m.remoteOpened (streamDirection id) ≤ id / 4 ∧
      m' = m.openRemoteUpTo (streamDirection id) (id / 4 + 1)) := by
  unfold acceptStream at h
  split at h
  · next hsome => exact Or.inl ⟨hsome, (Except.ok.inj h).symm⟩
  split at h
  · cases h
  next hlocal =>
  have hremote : m.isLocalInitiated id = false := by simpa using hlocal
  have hmod := remote_mod hremote
  dsimp only at h
  rw [show (id - m.remoteStreamBase (streamDirection id)) / 4 + 1 = id / 4 + 1 by omega] at h
  split at h
  · cases h
  split at h
  · cases h
  split at h
  · cases h
  split at h
  · next hle => exact Or.inr (Or.inl ⟨hremote, hle, (Except.ok.inj h).symm⟩)
  · next hnew => exact Or.inr (Or.inr ⟨hremote, by omega, (Except.ok.inj h).symm⟩)

theorem acceptStream_spec (hm : m.Numbered) (h : m.acceptStream id = .ok m') :
    m'.Numbered ∧ (m'.get id).isSome ∧ m.Creates m' := by
  rcases acceptStream_cases h with ⟨hsome, rfl⟩ | ⟨hremote, hlt, rfl⟩ | ⟨hremote, hle, hm'⟩
  · exact ⟨hm, hsome, Creates.refl _⟩
  · grind [cases Numbered, Creates.refl, openedCount]
  · have hfind := m.openRemote_find? (streamDirection id)
      (m.remoteStreamBase (streamDirection id)) (m.remoteOpened (streamDirection id))
      (id / 4 + 1 - m.remoteOpened (streamDirection id))
    dsimp only [openRemoteUpTo] at hm'
    generalize m.openRemote (streamDirection id) (m.remoteStreamBase (streamDirection id))
      (m.remoteOpened (streamDirection id))
      (id / 4 + 1 - m.remoteOpened (streamDirection id)) = streams at hfind hm'
    have hmod := remote_mod hremote
    have hcount : ∀ j, m'.openedCount j =
        if m.isLocalInitiated j = false ∧ streamDirection j = streamDirection id
        then id / 4 + 1 else m.openedCount j := by
      intro j
      rw [hm', openedCount_setRemoteOpened]
    have hget : ∀ j, m'.get j = streams.find? j := by
      intro j
      rw [hm']
      cases streamDirection id <;> rfl
    -- identifiers of the extended class are those with the residue of `id`
    have hclass : ∀ j n, j = m.remoteStreamBase (streamDirection id) + n * 4 →
        (m.isLocalInitiated j = false ∧ streamDirection j = streamDirection id) ∧ j / 4 = n := by
      intro j n hj
      obtain ⟨hl, hd⟩ := class_congr (m := m) (i := j) (j := id) (by omega)
      exact ⟨⟨hl.trans hremote, hd⟩, by omega⟩
    have hold : ∀ j, m.isLocalInitiated j = false ∧ streamDirection j = streamDirection id →
        ((m.get j).isSome ↔ j / 4 < m.remoteOpened (streamDirection id)) := by
      intro j hj
      rw [hm.exists_iff, openedCount, hj.1, hj.2]
      simp
    have hiff : ∀ j, (m'.get j).isSome ↔ j / 4 < m'.openedCount j := by
      intro j
      rw [hget, hcount]
      by_cases hj : m.isLocalInitiated j = false ∧ streamDirection j = streamDirection id
      · have hjmod := remote_mod hj.1
        rw [hj.2] at hjmod
        rw [if_pos hj]
        rcases hfind j with ⟨⟨n, h1, h2, hn⟩, hnew⟩ | ⟨hnone, hsame⟩
        · rw [hnew]
          simp only [Option.isSome_some, true_iff]
          omega
        · have hnone' := hnone (j / 4)
          rw [hsame, show m.streams.find? j = m.get j from rfl, hold j hj]
          omega
      · rw [if_neg hj]
        rcases hfind j with ⟨⟨n, h1, h2, hn⟩, -⟩ | ⟨-, hsame⟩
        · exact absurd (hclass j n hn).1 hj
        · rw [hsame]
          exact hm.exists_iff j
    refine ⟨⟨?_, ?_, hiff⟩, ?_, ?_⟩
    · rw [hm']
      cases streamDirection id <;> exact hm.nextBidi
    · rw [hm']
      cases streamDirection id <;> exact hm.nextUni
    · rw [hiff, hcount, if_pos ⟨hremote, rfl⟩]
      omega
    · intro j
      rw [hget]
      rcases hfind j with ⟨⟨n, h1, h2, hj⟩, hnew⟩ | ⟨-, hsame⟩
      · obtain ⟨hj', hdiv⟩ := hclass j n hj
        refine Or.inr ⟨?_, _, hnew, _, _, _, _, rfl⟩
        have hnot : ¬ (m.get j).isSome := by
          rw [hold j hj']
          omega
        simpa using hnot
      · exact Or.inl hsame

def nextId (m : StreamManager) : StreamDirection → Nat
  | .bidirectional => m.nextBidiId
  | .unidirectional => m.nextUniId

structure OpensLocal (m : StreamManager) (direction : StreamDirection) (id : Nat)
    (m' : StreamManager) : Prop where
  id_eq : id = m.nextId direction
  side : m'.side = m.side
  limits : m'.initialLimitsForStream = m.initialLimitsForStream
  remoteLimit : m'.remoteLimit = m.remoteLimit
  remoteOpened : m'.remoteOpened = m.remoteOpened
  nextId : ∀ d, m'.nextId d = if d = direction then m.nextId d + 4 else m.nextId d
  localOpened : ∀ d,
    m'.localOpened d = if d = direction then m.localOpened d + 1 else m.localOpened d
  streams : streamDirection id = direction → m'.streams = m.streams.insert id (.new id direction
    true (m.initialLimitsForStream id true).1 (m.initialLimitsForStream id true).2)

theorem openBidi_opensLocal (h : m.openBidi = .ok (id, m')) :
    m.OpensLocal .bidirectional id m' := by
  unfold openBidi at h
  split at h <;> cases h
  exact ⟨rfl, rfl, rfl, rfl, rfl, fun d => by cases d <;> rfl, fun d => by cases d <;> rfl,
    fun hd => by simp only [initialLimitsForStream, hd]⟩

theorem openUni_opensLocal (h : m.openUni = .ok (id, m')) :
    m.OpensLocal .unidirectional id m' := by
  unfold openUni at h
  split at h <;> cases h
  exact ⟨rfl, rfl, rfl, rfl, rfl, fun d => by cases d <;> rfl, fun d => by cases d <;> rfl,
    fun hd => by simp only [initialLimitsForStream, hd]⟩

namespace OpensLocal

variable {direction : StreamDirection} (h : m.OpensLocal direction id m')

include h

theorem isLocalInitiated (j : Nat) : m'.isLocalInitiated j = m.isLocalInitiated j := by
  rw [StreamManager.isLocalInitiated, StreamManager.isLocalInitiated, h.side]

variable (hnext : ∀ d, m.nextId d = localStreamBase m.side d + 4 * m.localOpened d)

include hnext

theorem nextId_eq (d : StreamDirection) :
    m'.nextId d = localStreamBase m'.side d + 4 * m'.localOpened d := by
  have hd := hnext d
  rw [h.nextId, h.localOpened, h.side]
  split <;> omega

theorem class_eq : m.isLocalInitiated id = true ∧ streamDirection id = direction ∧
    id / 4 = m.localOpened direction := by
  obtain ⟨hl, hd⟩ := m.localStreamBase_class direction (m.localOpened direction)
  rw [← hnext, ← h.id_eq] at hl hd
  have hbase := localStreamBase_lt m.side direction
  have hid := h.id_eq.trans (hnext direction)
  exact ⟨hl, hd, by omega⟩

theorem get_eq (j : Nat) : m'.get j = if j = id then some (.new id direction true
    (m.initialLimitsForStream id true).1 (m.initialLimitsForStream id true).2) else m.get j := by
  rw [get, h.streams (h.class_eq hnext).2.1, OrdMap.find?_insert]
  rfl

end OpensLocal

theorem Numbered.nextId (hm : m.Numbered) :
    ∀ d, m.nextId d = localStreamBase m.side d + 4 * m.localOpened d
  | .bidirectional => hm.nextBidi
  | .unidirectional => hm.nextUni

theorem OpensLocal.creates {direction : StreamDirection} (h : m.OpensLocal direction id m')
    (hm : m.Numbered) : m'.Numbered ∧ m.Creates m' := by
  have hnext := h.nextId_eq hm.nextId
  obtain ⟨hl, hd, hdiv⟩ := h.class_eq hm.nextId
  have hget := h.get_eq hm.nextId
  have hnone : m.get id = none := by
    have hnot : ¬ (m.get id).isSome := by
      rw [hm.exists_iff, openedCount, if_pos hl, hd]
      omega
    simpa using hnot
  refine ⟨⟨hnext .bidirectional, hnext .unidirectional, fun j => ?_⟩, fun j => ?_⟩
  · rw [hget, openedCount, h.isLocalInitiated, h.remoteOpened, h.localOpened]
    have hj := hm.exists_iff j
    rw [openedCount] at hj
    by_cases hjid : j = id
    · subst hjid
      simp [hl, hd, hdiv]
    · rw [if_neg hjid, hj]
      cases hlj : m.isLocalInitiated j with
      | false => simp
      | true =>
        split
        · next hdj =>
          grind [eq_of_class_of_div]
        · exact Iff.rfl
  · grind [IsFresh]

theorem Numbered.congr (hm : m.Numbered) (hside : m'.side = m.side)
    (hnb : m'.nextBidiId = m.nextBidiId) (hnu : m'.nextUniId = m.nextUniId)
    (hlocal : ∀ d, m'.localOpened d = m.localOpened d)
    (hremote : ∀ d, m'.remoteOpened d = m.remoteOpened d)
    (hget : ∀ j, (m'.get j).isSome = (m.get j).isSome) : m'.Numbered where
  nextBidi := by
    rw [hnb, hside, hm.nextBidi]
    exact congrArg _ (congrArg _ (hlocal .bidirectional).symm)
  nextUni := by
    rw [hnu, hside, hm.nextUni]
    exact congrArg _ (congrArg _ (hlocal .unidirectional).symm)
  exists_iff := by
    intro j
    have hl : m'.isLocalInitiated j = m.isLocalInitiated j := by
      rw [isLocalInitiated, isLocalInitiated, hside]
    rw [hget, hm.exists_iff, openedCount, openedCount, hl, hlocal, hremote]

end StreamManager

end Starfish.Quic
