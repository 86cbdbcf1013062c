import Starfish.Quic.Connection.Streams
import Starfish.Quic.Transport.StreamTable

/-!
# The states of a stream (RFC 9000, section 3)

Both parts of a stream end in a terminal state, and a stream with both parts there is
collected. This module says what each operation of the stream table and of the transport
does to the states of all streams: frames of the peer, calls of the application,
acknowledged STREAM frames, and the collection of closed streams.
-/

namespace Starfish.Quic

def SendState.terminal : SendState → Bool
  | .dataRecvd | .resetRecvd => true
  | _ => false

/-- The receive part is done. -/
def RecvState.terminal : RecvState → Bool
  | .dataRead | .resetRead => true
  | _ => false

def StreamState.sendTerminal (st : StreamState) : Bool := st.send.any SendState.terminal

def StreamState.recvTerminal (st : StreamState) : Bool := st.recv.any RecvState.terminal

def SendMoves (a b : Option SendState) : Prop :=
  b = a ∨ a = some .ready ∨ a = some .send ∨ a = some .dataSent

def RecvMoves (a b : Option RecvState) : Prop := b = a ∨ a.any RecvState.terminal = false

structure StreamState.Moves (st st' : StreamState) : Prop where
  send : SendMoves st.send st'.send
  recv : RecvMoves st.recv st'.recv

namespace StreamState.Moves

variable {st st' : StreamState}

theorem of_eq (hsend : st'.send = st.send) (hrecv : st'.recv = st.recv) : st.Moves st' :=
  ⟨.inl hsend, .inl hrecv⟩

theorem trans {st'' : StreamState} (h : st.Moves st') (h' : st'.Moves st'') : st.Moves st'' := by
  constructor
  · obtain heq | hopen := h.send
    · have hsend := h'.send
      rwa [heq] at hsend
    · exact .inr hopen
  · obtain heq | hopen := h.recv
    · have hrecv := h'.recv
      rwa [heq] at hrecv
    · exact .inr hopen

theorem send_eq (h : st.Moves st') (hterminal : st.sendTerminal = true) : st'.send = st.send := by
  unfold StreamState.sendTerminal at hterminal
  obtain heq | heq | heq | heq := h.send
  · exact heq
  all_goals
    rw [heq] at hterminal
    cases hterminal

theorem send_resetSent (h : st.Moves st') (hreset : st.send = some .resetSent) :
    st'.send = some .resetSent := by
  obtain heq | heq | heq | heq := h.send
  · rw [heq, hreset]
  all_goals
    rw [hreset] at heq
    cases heq

theorem recv_eq (h : st.Moves st') (hterminal : st.recvTerminal = true) : st'.recv = st.recv := by
  unfold StreamState.recvTerminal at hterminal
  obtain heq | hopen := h.recv
  all_goals grind

end StreamState.Moves

/-! ## One stream -/

theorem fixFinalSize_moves (st : StreamState) (stop : Nat) : st.Moves (fixFinalSize st stop) := by
  refine ⟨.inl rfl, ?_⟩
  unfold fixFinalSize
  split
  · next hrecv =>
    rw [hrecv]
    exact .inr rfl
  · exact .inl rfl

theorem markReceived_moves (st : StreamState) : st.Moves (markReceived st) := by
  unfold markReceived
  split
  · next hknown =>
    rw [Bool.and_eq_true, decide_eq_true_eq] at hknown
    refine ⟨.inl rfl, ?_⟩
    rw [hknown.1]
    exact .inr rfl
  · exact .of_eq rfl rfl

theorem receiveStreamFrame_moves (st : StreamState) (conn : ConnectionFlowControl)
    (frame : StreamFrame) : st.Moves (receiveStreamFrame st conn frame).2.1 := by
  unfold receiveStreamFrame
  dsimp only
  split
  · exact .of_eq rfl rfl
  split
  · exact .of_eq rfl rfl
  split
  · exact .of_eq rfl rfl
  split
  · exact .of_eq rfl rfl
  split
  · exact .of_eq rfl rfl
  -- From here on only the buffer and the receive part change.
  generalize hcharged : (if frame.data.isEmpty = true then _ else _ : StreamState) = charged
  have hsame : st.Moves charged := by
    rw [← hcharged]
    split <;> exact .of_eq rfl rfl
  split
  · exact hsame
  · apply hsame.trans
    split
    · exact (fixFinalSize_moves charged _).trans (markReceived_moves _)
    · exact markReceived_moves charged

variable {sid : Nat}

theorem receiveResetStream_moves {st : StreamState} {code finalSize : Nat}
    (h : st.recvTerminal = false ∨ validateStreamFinalSize sid st finalSize ≠ .ok ()) :
    st.Moves (receiveResetStream st sid code finalSize).2 := by
  unfold receiveResetStream
  split
  · exact .of_eq rfl rfl
  · split
    · exact .of_eq rfl rfl
    · next hok => exact ⟨.inl rfl, .inr (h.resolve_right fun hne => hne hok)⟩

theorem receiveResetStream_terminal {st : StreamState} {code finalSize : Nat}
    (hterminal : st.recvTerminal = true) (hok : validateStreamFinalSize sid st finalSize = .ok ()) :
    (receiveResetStream st sid code finalSize).2.recv ≠ st.recv := by
  unfold receiveResetStream StreamState.recvTerminal at *
  cases hrecv : st.recv with
  | none =>
    rw [hrecv] at hterminal
    cases hterminal
  | some state =>
    rw [hrecv] at hterminal
    simp only [Option.isNone_some, Bool.false_eq_true, if_false, hok]
    cases state <;> first | decide | cases hterminal

theorem receiveRead_moves (st : StreamState) (sid bufLen : Nat) :
    st.Moves (receiveRead st sid bufLen).2 := by
  unfold receiveRead
  split
  · exact .of_eq rfl rfl
  split
  · next hreset =>
    refine ⟨.inl rfl, ?_⟩
    rw [hreset]
    exact .inr rfl
  · dsimp only
    split
    · refine ⟨.inl rfl, ?_⟩
      cases hrecv : st.recv with
      | none => exact .inl rfl
      | some state => cases state <;> first | exact .inl rfl | exact .inr rfl
    · exact .of_eq rfl rfl

theorem acknowledgeSentData_states (st : StreamState) (offset len : Nat) (fin : Bool) :
    (st.acknowledgeSentData offset len fin).send = st.send ∧
      (st.acknowledgeSentData offset len fin).recv = st.recv := by
  grind [StreamState.acknowledgeSentData]

theorem acknowledged_moves (st : StreamState) (frame : StreamFrame) :
    st.Moves (Transport.acknowledged st frame) := by
  obtain ⟨hsend, hrecv⟩ := acknowledgeSentData_states st frame.offset frame.data.length frame.fin
  unfold Transport.acknowledged
  dsimp only
  split
  · next hdone =>
    rw [Bool.and_eq_true, decide_eq_true_eq, hsend] at hdone
    exact ⟨.inr (.inr (.inr hdone.1)), .inl hrecv⟩
  · exact .of_eq hsend hrecv

/-! ## All streams -/

def Tabled (m : StreamManager) : Prop :=
  ∃ initial created, StreamTable.Consistent initial ⟨m, created⟩

def Advances (m m' : StreamManager) : Prop :=
  ∀ sid st st', m.get sid = some st → m'.get sid = some st' → st.Moves st'

def Resetting (m : StreamManager) (sid : Nat) : Prop :=
  ∃ st, m.get sid = some st ∧ st.send = some .resetSent

def Extends (m m' : StreamManager) : Prop := ∀ sid st, m.get sid = some st → m'.get sid = some st

/-- What a step of the connection does to its streams, as long as it is a `proper` one. -/
structure Follows (proper : Prop) (m m' : StreamManager) : Prop where
  tabled : Tabled m'
  keeps : ∀ sid, Resetting m sid → Resetting m' sid
  advances : proper → Advances m m'

theorem Extends.follows {m m' : StreamManager} {proper : Prop} (h : Extends m m')
    (htabled : Tabled m') : Follows proper m m' where
  tabled := htabled
  keeps := by
    rintro sid ⟨st, hst, hreset⟩
    exact ⟨st, h sid st hst, hreset⟩
  advances := fun _ sid st st' hst hst' => by
    cases (h sid st hst).symm.trans hst'
    exact .of_eq rfl rfl

theorem Tabled.set {m : StreamManager} (h : Tabled m) (st : StreamState)
    (hlive : (m.get sid).isSome) : Tabled (m.set sid st) := by
  obtain ⟨initial, created, hconsistent⟩ := h
  have hkeys : (m.set sid st).streams.keys = m.streams.keys :=
    OrdMap.keys_insert_of_isSome st hlive
  exact ⟨initial, created, (hconsistent.sameKeys (m := m.set sid st) rfl rfl rfl (fun _ => rfl)
    (fun _ => rfl) (fun _ => rfl) hkeys).consistent⟩

theorem Extends.set {m m' : StreamManager} {proper : Prop} (h : Extends m m') (htabled : Tabled m')
    {st st' : StreamState} (hst : m'.get sid = some st)
    (hkeeps : st.send = some .resetSent → st'.send = some .resetSent)
    (hmoves : proper → m.get sid = some st → st.Moves st') :
    Follows proper m (m'.set sid st') where
  tabled := htabled.set st' (by rw [hst]; rfl)
  keeps := by
    rintro j ⟨old, hold, hreset⟩
    have hsame := h j old hold
    grind [Resetting, StreamManager.get_set]
  advances := fun hproper j old new hold hnew => by
    rw [StreamManager.get_set] at hnew
    have hsame := h j old hold
    split at hnew
    · next heq =>
      grind
    · cases hsame.symm.trans hnew
      exact .of_eq rfl rfl

structure SameStates (m m' : StreamManager) : Prop where
  side : m'.side = m.side
  nextBidi : m'.nextBidiId = m.nextBidiId
  nextUni : m'.nextUniId = m.nextUniId
  localOpened : ∀ d, m'.localOpened d = m.localOpened d
  remoteOpened : ∀ d, m'.remoteOpened d = m.remoteOpened d
  remoteLimit : ∀ d, m'.remoteLimit d = m.remoteLimit d
  keys : m'.streams.keys = m.streams.keys
  states : ∀ sid st, m.get sid = some st →
    ∃ st', m'.get sid = some st' ∧ st'.send = st.send ∧ st'.recv = st.recv

namespace SameStates

variable {m m' m'' : StreamManager}

theorem refl (m : StreamManager) : SameStates m m :=
  ⟨rfl, rfl, rfl, fun _ => rfl, fun _ => rfl, fun _ => rfl, rfl, fun _ st hst => ⟨st, hst, rfl, rfl⟩⟩

theorem trans (h : SameStates m m') (h' : SameStates m' m'') : SameStates m m'' where
  side := h'.side.trans h.side
  nextBidi := h'.nextBidi.trans h.nextBidi
  nextUni := h'.nextUni.trans h.nextUni
  localOpened := fun d => (h'.localOpened d).trans (h.localOpened d)
  remoteOpened := fun d => (h'.remoteOpened d).trans (h.remoteOpened d)
  remoteLimit := fun d => (h'.remoteLimit d).trans (h.remoteLimit d)
  keys := h'.keys.trans h.keys
  states := fun sid st hst => by
    grind [cases SameStates]

theorem set {st st' : StreamState} (hst : m.get sid = some st)
    (hsend : st'.send = st.send) (hrecv : st'.recv = st.recv) : SameStates m (m.set sid st') where
  side := rfl
  nextBidi := rfl
  nextUni := rfl
  localOpened := fun _ => rfl
  remoteOpened := fun _ => rfl
  remoteLimit := fun _ => rfl
  keys := by
    apply OrdMap.keys_insert_of_isSome
    rw [show m.streams.find? sid = some st from hst]
    rfl
  states := fun j old hold => by
    grind [StreamManager.get_set]

theorem follows {proper : Prop} (h : SameStates m m') (htabled : Tabled m) :
    Follows proper m m' where
  tabled := by
    obtain ⟨initial, created, hconsistent⟩ := htabled
    exact ⟨initial, created, (hconsistent.sameKeys h.side h.nextBidi h.nextUni h.localOpened
      h.remoteOpened h.remoteLimit h.keys).consistent⟩
  keeps := by
    rintro sid ⟨st, hst, hreset⟩
    obtain ⟨st', hst', hsend, -⟩ := h.states sid st hst
    exact ⟨st', hst', hsend.trans hreset⟩
  advances := fun _ sid st st' hst hst' => by
    obtain ⟨st'', hst'', hsend, hrecv⟩ := h.states sid st hst
    cases hst''.symm.trans hst'
    exact .of_eq hsend hrecv

end SameStates

/-! ## Creating and collecting streams -/

theorem extends_of_created {m m' : StreamManager} {initial initial' : StreamDirection → Nat}
    {created ids : List Nat} (h : StreamTable.Consistent initial ⟨m, created⟩)
    (h' : StreamTable.Consistent initial' ⟨m', created ++ ids⟩)
    (hget : ∀ sid, sid ∉ ids → m'.get sid = m.get sid) : Extends m m' := by
  intro sid st hst
  grind [cases StreamTable.Consistent]

variable {id : Nat}

theorem openLocal_extends {m m' : StreamManager} (h : Tabled m) {direction : StreamDirection}
    (hopen : m.OpensLocal direction id m') : Tabled m' ∧ Extends m m' := by
  obtain ⟨initial, created, hconsistent⟩ := h
  have hnext := (hconsistent.openLocal hopen).consistent
  refine ⟨⟨initial, created ++ [id], hnext⟩, extends_of_created hconsistent hnext fun sid hsid => ?_⟩
  rw [hopen.get_eq hconsistent.nextId, if_neg fun heq => hsid (List.mem_singleton.mpr heq)]

theorem acceptStream_extends {m m' : StreamManager} (h : Tabled m)
    (haccept : m.acceptStream id = .ok m') : Tabled m' ∧ Extends m m' := by
  obtain ⟨initial, created, hconsistent⟩ := h
  have hnext := (hconsistent.acceptStream haccept).consistent
  refine ⟨⟨initial, _, hnext⟩, ?_⟩
  by_cases hlive : (m.get id).isSome
  · rw [StreamManager.acceptStream, if_pos hlive] at haccept
    cases haccept
    exact fun _ _ hst => hst
  · apply extends_of_created hconsistent hnext
    intro sid hsid
    rw [StreamTable.newIds, if_neg hlive, StreamTable.mem_idsFrom] at hsid
    obtain ⟨-, rfl⟩ | ⟨-, -, rfl⟩ | ⟨-, -, rfl⟩ := StreamManager.acceptStream_cases haccept
    · rfl
    · rfl
    · rw [StreamManager.get, StreamTable.openRemoteUpTo_streams]
      obtain ⟨hnew, -⟩ | ⟨-, hsame⟩ := m.openRemote_find? (streamDirection id)
        (m.remoteStreamBase (streamDirection id)) (m.remoteOpened (streamDirection id))
        (id / 4 + 1 - m.remoteOpened (streamDirection id)) sid
      · exact absurd hnew hsid
      · exact hsame

theorem gcClosedStreams_follows {m : StreamManager} {proper : Prop} (h : Tabled m) :
    Follows proper m m.gcClosedStreams.2 := by
  obtain ⟨initial, created, hconsistent⟩ := h
  have hget : ∀ sid st, m.gcClosedStreams.2.get sid = some st ↔
      m.get sid = some st ∧ StreamManager.isClosed st = false := by
    intro sid st
    rw [StreamManager.get, StreamManager.get, OrdMap.find?_eq_some_iff, OrdMap.find?_eq_some_iff]
    exact (OrdMap.mem_filter _).trans (by simp)
  constructor
  · exact ⟨initial, created, hconsistent.gcClosedStreams.consistent⟩
  · rintro sid ⟨st, hst, hreset⟩
    have hopen : StreamManager.isClosed st = false := by
      rw [StreamManager.isClosed, hreset]
      rfl
    exact ⟨st, (hget sid st).mpr ⟨hst, hopen⟩, hreset⟩
  · intro _ sid st st' hst hst'
    cases hst.symm.trans ((hget sid st').mp hst').1
    exact .of_eq rfl rfl

/-! ## Frames of the peer -/

section

variable {t t' : Transport}

theorem acceptNamed_extends (h : Tabled t.streams) (hacc : t.acceptNamed sid = .ok t') :
    Tabled t'.streams ∧ Extends t.streams t'.streams ∧ t'.pendingFrames = t.pendingFrames := by
  unfold Transport.acceptNamed at hacc
  split at hacc
  · grind [acceptStream_extends]
  · cases hacc
    exact ⟨h, fun _ _ hst => hst, rfl⟩

theorem processStream_follows {proper : Prop} (h : Tabled t.streams) (frame : StreamFrame) :
    Follows proper t.streams (t.processStream frame).2.streams ∧
      (t.processStream frame).2.pendingFrames = t.pendingFrames := by
  unfold Transport.processStream
  split
  · exact ⟨(SameStates.refl _).follows h, rfl⟩
  · next t' hacc =>
    obtain ⟨htabled, hextends, hqueue⟩ := acceptNamed_extends h hacc
    split
    · exact ⟨hextends.follows htabled, hqueue⟩
    · next st hst =>
      have hmoves := receiveStreamFrame_moves st t'.flowControl frame
      exact ⟨hextends.set htabled hst hmoves.send_resetSent fun _ _ => hmoves, hqueue⟩

theorem receiveResetStream_send (st : StreamState) (sid code finalSize : Nat) :
    (receiveResetStream st sid code finalSize).2.send = st.send := by
  unfold receiveResetStream
  split
  · rfl
  · split <;> rfl

theorem processResetStream_follows (h : Tabled t.streams) (sid code finalSize : Nat) :
    Follows (∀ st, t.streams.get sid = some st →
        st.recvTerminal = false ∨ validateStreamFinalSize sid st finalSize ≠ .ok ())
      t.streams (t.processResetStream sid code finalSize).2.streams ∧
      (t.processResetStream sid code finalSize).2.pendingFrames = t.pendingFrames := by
  unfold Transport.processResetStream
  split
  · exact ⟨(SameStates.refl _).follows h, rfl⟩
  · next t' hacc =>
    obtain ⟨htabled, hextends, hqueue⟩ := acceptNamed_extends h hacc
    split
    · exact ⟨hextends.follows htabled, hqueue⟩
    · next st hst =>
      refine ⟨hextends.set htabled hst ?_ fun hproper hold =>
        receiveResetStream_moves (hproper st hold), hqueue⟩
      rw [receiveResetStream_send]
      exact id

theorem processStopSending_follows (h : Tabled t.streams) (sid code : Nat) :
    Follows (∀ st, t.streams.get sid = some st → st.sendTerminal = false)
      t.streams (t.processStopSending sid code).2.streams ∧
      ((t.processStopSending sid code).2.pendingFrames = t.pendingFrames ∨
        Resetting (t.processStopSending sid code).2.streams sid ∧
          ∃ finalSize, (t.processStopSending sid code).2.pendingFrames = t.pendingFrames ++
            [(.applicationData, .resetStream sid code finalSize)]) := by
  unfold Transport.processStopSending
  split
  · exact ⟨(SameStates.refl _).follows h, .inl rfl⟩
  · next t' hacc =>
    obtain ⟨htabled, hextends, hqueue⟩ := acceptNamed_extends h hacc
    split
    · exact ⟨hextends.follows htabled, .inl hqueue⟩
    · next st hst =>
      split
      · exact ⟨hextends.follows htabled, .inl hqueue⟩
      · next hsend =>
        refine ⟨hextends.set htabled hst (fun _ => rfl) fun hproper hold => ⟨?_, .inl rfl⟩,
          .inr ⟨⟨_, (StreamManager.get_set _ _ _ _).trans (if_pos rfl), rfl⟩, st.sendOffset, ?_⟩⟩
        · have hopen := hproper st hold
          unfold StreamState.sendTerminal at hopen
          cases hstate : st.send with
          | none => simp [hstate] at hsend
          | some state => cases state <;> simp [hstate, SendState.terminal, SendMoves] at hopen ⊢
        · rw [← hqueue]
          rfl

end

/-! ## Limits -/

def Frame.resetId : Frame → Option Nat
  | .resetStream sid _ _ => some sid
  | _ => none

def resetIds (frames : List Frame) : List Nat := frames.filterMap Frame.resetId

def Transport.queuedResets (t : Transport) : List Nat := resetIds (t.pendingFrames.map Prod.snd)

theorem queuedResets_congr {t t' : Transport} (h : t'.pendingFrames = t.pendingFrames) :
    t'.queuedResets = t.queuedResets := by
  rw [Transport.queuedResets, h]
  rfl

theorem queuedResets_pushBack {t : Transport} {frame : Frame} (h : frame.resetId = none) :
    (t.pushBack frame).queuedResets = t.queuedResets := by
  simp [Transport.queuedResets, Transport.pushBack, resetIds, h]

/-- Neither the streams' states nor the resets that wait change. -/
structure Quiet (t t' : Transport) : Prop where
  states : SameStates t.streams t'.streams
  resets : t'.queuedResets = t.queuedResets

namespace Quiet

variable {t t' t'' : Transport}

theorem refl (t : Transport) : Quiet t t := ⟨.refl _, rfl⟩

theorem trans (h : Quiet t t') (h' : Quiet t' t'') : Quiet t t'' :=
  ⟨h.states.trans h'.states, h'.resets.trans h.resets⟩

theorem pushBack (h : Quiet t t') {frame : Frame} (hframe : frame.resetId = none) :
    Quiet t (t'.pushBack frame) :=
  ⟨h.states, (queuedResets_pushBack hframe).trans h.resets⟩

theorem setStream {st st' : StreamState} (hst : t.streams.get sid = some st)
    (hsend : st'.send = st.send) (hrecv : st'.recv = st.recv) : Quiet t (t.setStream sid st') :=
  ⟨.set hst hsend hrecv, rfl⟩

theorem withFlowControl (t : Transport) (fc : ConnectionFlowControl) :
    Quiet t { t with flowControl := fc } := ⟨.refl _, rfl⟩

theorem withManager {m : StreamManager} (h : SameStates t.streams m) :
    Quiet t { t with streams := m } := ⟨h, rfl⟩

end Quiet

section

variable (t : Transport)

theorem updateMaxBidiStreams_quiet (limit : Nat) :
    Quiet t { t with streams := t.streams.updateMaxBidiStreams limit } := by
  apply Quiet.withManager
  unfold StreamManager.updateMaxBidiStreams
  split
  · exact { SameStates.refl t.streams with }
  · exact .refl _

theorem updateMaxUniStreams_quiet (limit : Nat) :
    Quiet t { t with streams := t.streams.updateMaxUniStreams limit } := by
  apply Quiet.withManager
  unfold StreamManager.updateMaxUniStreams
  split
  · exact { SameStates.refl t.streams with }
  · exact .refl _

theorem applyPeerLimits_quiet (limits : PeerLimits) : Quiet t (t.applyPeerLimits limits) := by
  refine ⟨{ SameStates.refl t.streams with keys := OrdMap.keys_map _ _, states := ?_ }, rfl⟩
  grind [Transport.applyPeerLimits, StreamManager.applyPeerInitialLimits, StreamManager.get,
    OrdMap.find?_map]

theorem extendStream_quiet (sid : Nat) : Quiet t (t.extendStream sid) := by
  unfold Transport.extendStream
  split
  · exact .refl _
  · next st hst =>
    split
    · exact .refl _
    · split
      · exact .refl _
      · refine (Quiet.setStream hst ?_ ?_).pushBack ?_ <;> rfl

theorem generateFlowControlUpdates_quiet : Quiet t t.generateFlowControlUpdates := by
  have hstreams : ∀ (sids : List Nat) (u : Transport), Quiet u (sids.foldl .extendStream u) := by
    intro sids
    induction sids with
    | nil => exact Quiet.refl
    | cons sid sids ih => exact fun u => (extendStream_quiet u sid).trans (ih _)
  unfold Transport.generateFlowControlUpdates
  split
  · exact hstreams _ _
  · exact ((Quiet.withFlowControl t _).pushBack rfl).trans (hstreams _ _)

theorem generateStreamLimitUpdates_quiet : Quiet t t.generateStreamLimitUpdates := by
  have htake : Quiet t { t with streams := t.streams.takeMaxStreamsUpdates.2 } :=
    .withManager { SameStates.refl t.streams with }
  unfold Transport.generateStreamLimitUpdates
  dsimp only
  split <;> split
  · exact htake
  · exact htake.pushBack rfl
  · exact htake.pushBack rfl
  · exact (htake.pushBack rfl).pushBack rfl

theorem processFrame_quiet (frame : Frame) (hstream : ∀ f, frame ≠ .stream f)
    (hreset : ∀ sid code finalSize, frame ≠ .resetStream sid code finalSize)
    (hstop : ∀ sid code, frame ≠ .stopSending sid code) : Quiet t (t.processFrame frame).2 := by
  unfold Transport.processFrame
  split
  · next f => exact absurd rfl (hstream f)
  · next sid code finalSize => exact absurd rfl (hreset sid code finalSize)
  · next sid code => exact absurd rfl (hstop sid code)
  · exact ⟨.refl _, rfl⟩
  · split
    · exact .refl _
    · next hst => exact .setStream hst rfl rfl
  · split
    · exact .refl _
    · split
      · exact updateMaxBidiStreams_quiet t _
      · exact updateMaxUniStreams_quiet t _
  · dsimp only
    split
    · exact .withFlowControl t _
    · exact (Quiet.withFlowControl t _).pushBack rfl
  · split
    · exact .refl _
    · next hst =>
      split
      · exact .refl _
      · dsimp only
        split
        · exact .setStream hst rfl rfl
        · refine (Quiet.setStream hst ?_ ?_).pushBack ?_ <;> rfl
  · dsimp only
    split
    · exact (Quiet.refl t).pushBack rfl
    · exact .refl _
  · exact .refl _

end

/-! ## Steps of the transport -/

/-- A frame of the peer that finds the part of the stream it acts on not done yet. -/
def ProperFrame (t : Transport) : Frame → Prop
  | .stopSending sid _ => ∀ st, t.streams.get sid = some st → st.sendTerminal = false
  | .resetStream sid _ finalSize => ∀ st, t.streams.get sid = some st →
      st.recvTerminal = false ∨ validateStreamFinalSize sid st finalSize ≠ .ok ()
  | _ => True

/-- A step leaves the streams in order, and queues a reset only for a stream being reset. -/
structure TransportFollows (proper : Prop) (t t' : Transport) : Prop where
  streams : Follows proper t.streams t'.streams
  queued : ∀ sid ∈ t'.queuedResets, sid ∈ t.queuedResets ∨ Resetting t'.streams sid

namespace TransportFollows

variable {proper : Prop} {t t' : Transport}

theorem of_queue (h : Follows proper t.streams t'.streams)
    (hqueue : t'.queuedResets = t.queuedResets) : TransportFollows proper t t' where
  streams := h
  queued := fun _ hsid => .inl (hqueue ▸ hsid)

theorem quiet (h : Quiet t t') (htabled : Tabled t.streams) : TransportFollows proper t t' :=
  of_queue (h.states.follows htabled) h.resets

theorem trans {t'' : Transport} (h : TransportFollows proper t t')
    (h' : TransportFollows proper t' t'')
    (hget : ∀ sid, (t''.streams.get sid).isSome → (t'.streams.get sid).isSome) :
    TransportFollows proper t t'' where
  streams :=
    { tabled := h'.streams.tabled
      keeps := fun sid hsid => h'.streams.keeps sid (h.streams.keeps sid hsid)
      advances := fun hproper sid st st'' hst hst'' => by
        obtain ⟨st', hst'⟩ := Option.isSome_iff_exists.mp (hget sid (by rw [hst'']; rfl))
        exact (h.streams.advances hproper sid st st' hst hst').trans
          (h'.streams.advances hproper sid st' st'' hst' hst'') }
  queued := fun sid hsid => by
    obtain hsid | hsid := h'.queued sid hsid
    · exact (h.queued sid hsid).imp_right (h'.streams.keeps sid)
    · exact .inr hsid

theorem processFrame (h : Tabled t.streams) (frame : Frame) :
    TransportFollows (ProperFrame t frame) t (t.processFrame frame).2 := by
  have hfind : (∀ f, frame ≠ .stream f) ∧
      (∀ sid code finalSize, frame ≠ .resetStream sid code finalSize) ∧
      (∀ sid code, frame ≠ .stopSending sid code) ∨ (∃ f, frame = .stream f) ∨
      (∃ sid code finalSize, frame = .resetStream sid code finalSize) ∨
      ∃ sid code, frame = .stopSending sid code := by
    cases frame <;> simp
  obtain ⟨hstream, hreset, hstop⟩ | ⟨f, rfl⟩ | ⟨sid, code, finalSize, rfl⟩ | ⟨sid, code, rfl⟩ :=
    hfind
  · exact quiet (processFrame_quiet t frame hstream hreset hstop) h
  · obtain ⟨hfollows, hqueue⟩ := processStream_follows h f
    exact of_queue hfollows (queuedResets_congr hqueue)
  · obtain ⟨hfollows, hqueue⟩ := processResetStream_follows h sid code finalSize
    exact of_queue hfollows (queuedResets_congr hqueue)
  · obtain ⟨hfollows, hqueue | ⟨hresetting, finalSize, hqueue⟩⟩ := processStopSending_follows h sid code
    · exact of_queue hfollows (queuedResets_congr hqueue)
    · refine ⟨hfollows, fun j hj => ?_⟩
      unfold Transport.queuedResets at hj
      dsimp only [Transport.processFrame] at hj ⊢
      rw [hqueue, List.map_append, resetIds, List.filterMap_append, List.mem_append] at hj
      obtain hj | hj := hj
      · exact .inl hj
      · cases List.mem_singleton.mp hj
        exact .inr hresetting

variable (proper) in
theorem setStream {st st' : StreamState} (h : Tabled t.streams)
    (hst : t.streams.get sid = some st) (hmoves : st.Moves st') :
    TransportFollows proper t (t.setStream sid st') := by
  have hextends : Extends t.streams t.streams := fun _ _ hold => hold
  exact of_queue (hextends.set h hst hmoves.send_resetSent fun _ _ => hmoves) rfl

theorem acknowledgeStreamFrame (h : Tabled t.streams) (frame : StreamFrame) :
    TransportFollows proper t (t.acknowledgeStreamFrame frame) := by
  unfold Transport.acknowledgeStreamFrame
  split
  · exact quiet (.refl t) h
  · next st hst => exact setStream proper h hst (acknowledged_moves st frame)

variable (proper) in
theorem streamRecv (h : Tabled t.streams) (sid bufLen : Nat) :
    TransportFollows proper t (t.streamRecv sid bufLen).2 := by
  unfold Transport.streamRecv
  split
  · exact quiet (.refl t) h
  · next st hst => exact setStream proper h hst (receiveRead_moves st sid bufLen)

variable (proper) in
theorem streamSend (h : Tabled t.streams) (state : ConnectionState)
    (kind : Option ApplicationPacketKind) (sid : Nat) (data : Bytes) (fin : Bool) :
    TransportFollows proper t (t.streamSend state kind sid data fin).2 := by
  have hsame : TransportFollows proper t t := quiet (.refl t) h
  unfold Transport.streamSend
  split
  · exact hsame
  split
  · exact hsame
  · next st hst =>
    split
    · exact hsame
    split
    · exact hsame
    · next hsome hopen =>
      dsimp only
      split
      · -- the states that are left are those in which data may be written
        have hmoves : st.Moves (Transport.written st (t.writeLen st data)
            (fin && t.writeLen st data == data.length)) := by
          refine ⟨.inr ?_, .inl rfl⟩
          cases hstate : st.send with
          | none => simp [hstate] at hsome
          | some state => cases state <;> simp [hstate] at hopen ⊢
        have hset := setStream proper h hst hmoves
        refine ⟨hset.streams, fun j hj => .inl ?_⟩
        simpa [Transport.queuedResets, resetIds, Frame.resetId] using hj
      · exact hsame

end TransportFollows

end Starfish.Quic
