import Starfish.Lib.Run
import Starfish.Quic.Connection.Streams

/-!
# What a step can do to the streams

Every event of the stream machine is of one of a few kinds. Most events leave
what a stream has received and sent alone and only move limits; the others are
described by the function they apply to one stream.
-/

namespace Starfish.Quic

/-- The receive part of a stream, without its limits. -/
structure RecvView where
  recv : Option RecvState
  recvBuf : OrdMap Bytes
  recvOffset : Nat
  finalSize : Option Nat
  received : Nat

structure SendView where
  send : Option SendState
  sendOffset : Nat

namespace StreamState

def recvView (st : StreamState) : RecvView :=
  ⟨st.recv, st.recvBuf, st.recvOffset, st.finalSize, st.flowControl.received⟩

def sendView (st : StreamState) : SendView := ⟨st.send, st.sendOffset⟩

end StreamState

namespace Transport

def queuedFor (sid : Nat) (frames : List (PacketNumberSpace × Frame)) : List Frame :=
  (frames.map Prod.snd).filter fun frame =>
    match frame with
    | .stream f => f.streamId == sid
    | .resetStream id _ _ => id == sid
    | _ => false

/-- Nothing has been received or sent from `t` to `u`: only limits differ. -/
structure SameStreams (t u : Transport) : Prop where
  recv : ∀ sid, (u.streams.get sid).map StreamState.recvView =
    (t.streams.get sid).map StreamState.recvView
  send : ∀ sid, (u.streams.get sid).map StreamState.sendView =
    (t.streams.get sid).map StreamState.sendView
  received : u.flowControl.received = t.flowControl.received
  queued : ∀ sid, queuedFor sid u.pendingFrames = queuedFor sid t.pendingFrames
  numbered : t.streams.Numbered → u.streams.Numbered

theorem SameStreams.refl (t : Transport) : SameStreams t t :=
  ⟨fun _ => rfl, fun _ => rfl, rfl, fun _ => rfl, id⟩

theorem SameStreams.trans {t u v : Transport} (h : SameStreams t u) (h' : SameStreams u v) :
    SameStreams t v where
  recv := fun sid => (h'.recv sid).trans (h.recv sid)
  send := fun sid => (h'.send sid).trans (h.send sid)
  received := h'.received.trans h.received
  queued := fun sid => (h'.queued sid).trans (h.queued sid)
  numbered := fun hn => h'.numbered (h.numbered hn)

variable {frame : Frame} {state : ConnectionState} {kind : Option ApplicationPacketKind}
  {data : Bytes} {fin : Bool} {e : TransportEvent} {r : TransportResponse}

theorem SameStreams.pushBack {t u : Transport} (h : SameStreams t u)
    (hframe : ∀ sid, queuedFor sid [(.applicationData, frame)] = []) :
    SameStreams t (u.pushBack frame) where
  recv := h.recv
  send := h.send
  received := h.received
  queued := fun sid => by
    rw [← h.queued sid, ← List.append_nil (queuedFor sid u.pendingFrames), ← hframe sid]
    simp [Transport.pushBack, queuedFor]
  numbered := h.numbered

variable {sid : Nat}

theorem SameStreams.setStream {t : Transport} {st st' : StreamState}
    (hst : t.streams.get sid = some st) (hrecv : st'.recvView = st.recvView)
    (hsend : st'.sendView = st.sendView) : SameStreams t (t.setStream sid st') where
  recv := by
    grind [Transport.setStream, StreamManager.get_set]
  send := by
    grind [Transport.setStream, StreamManager.get_set]
  received := rfl
  queued := fun _ => rfl
  numbered := fun hn => hn.set st' (by simp [hst])

theorem SameStreams.setFlowControl {t u : Transport} (h : SameStreams t u)
    {fc : ConnectionFlowControl} (hfc : fc.received = u.flowControl.received) :
    SameStreams t { u with flowControl := fc } :=
  ⟨h.recv, h.send, hfc.trans h.received, h.queued, h.numbered⟩

theorem SameStreams.setStreams {t : Transport} {m : StreamManager}
    (hget : ∀ sid, m.get sid = t.streams.get sid)
    (hnum : t.streams.Numbered → m.Numbered) : SameStreams t { t with streams := m } :=
  ⟨fun sid => by rw [hget], fun sid => by rw [hget], rfl, fun _ => rfl, hnum⟩

structure Accepted (t t' : Transport) (sid : Nat) : Prop where
  numbered : t'.streams.Numbered
  isSome : (t'.streams.get sid).isSome
  creates : t.streams.Creates t'.streams
  flowControl : t'.flowControl = t.flowControl
  pendingFrames : t'.pendingFrames = t.pendingFrames

theorem acceptNamed_spec {t t' : Transport} (hnum : t.streams.Numbered)
    (h : t.acceptNamed sid = .ok t') : Accepted t t' sid := by
  unfold acceptNamed at h
  split at h
  · split at h
    · cases h
    · next hm =>
      obtain rfl := Except.ok.inj h
      obtain ⟨hn, hsome, hcreates⟩ := StreamManager.acceptStream_spec hnum hm
      exact ⟨hn, hsome, hcreates, rfl, rfl⟩
  · next hsome =>
    obtain rfl := Except.ok.inj h
    exact ⟨hnum, by simpa [Option.isSome_iff_ne_none] using hsome, StreamManager.Creates.refl _,
      rfl, rfl⟩

def readResponse : Except QuicError (Bytes × Bool) → TransportResponse
  | .ok (data, fin) => .received data fin
  | .error e => .refused e

/-- Events that neither carry nor take data. -/
def IsQuiet : TransportEvent → TransportResponse → Prop
  | .frame (.stream _), _ => False
  | .frame (.resetStream _ _ _), _ => False
  | .frame (.stopSending _ _), _ => False
  | .recv _ _, .received _ _ => False
  | .send _ _ _ _ _, .sent len => len = 0
  | _, _ => True

inductive StepCases (t : Transport) : TransportEvent → TransportResponse → Transport → Prop
  | quiet {e : TransportEvent} {r : TransportResponse} {u : Transport} (hquiet : IsQuiet e r)
      (hsame : SameStreams t u) : StepCases t e r u
  | opened {e : TransportEvent} {r : TransportResponse} {m : StreamManager}
      (he : e = .openBidi ∨ e = .openUni) (hnum : m.Numbered) (hcreates : t.streams.Creates m) :
      StepCases t e r { t with streams := m }
  | stream {f : StreamFrame} {t' : Transport} {st st' : StreamState} {conn : ConnectionFlowControl}
      (hacc : Accepted t t' f.streamId) (hst : t'.streams.get f.streamId = some st)
      (hrecv : receiveStreamFrame st t'.flowControl f = (.ok (), st', conn)) :
      StepCases t (.frame (.stream f)) .done
        { t'.setStream f.streamId st' with flowControl := conn }
  | reset {sid code finalSize : Nat} {t' : Transport} {st st' : StreamState}
      (hacc : Accepted t t' sid) (hst : t'.streams.get sid = some st)
      (hrecv : receiveResetStream st sid code finalSize = (.ok (), st')) :
      StepCases t (.frame (.resetStream sid code finalSize)) .done (t'.setStream sid st')
  | stopSending {sid code : Nat} {t' : Transport} {st : StreamState}
      (hacc : Accepted t t' sid) (hst : t'.streams.get sid = some st)
      (hsend : st.send.isSome) :
      StepCases t (.frame (.stopSending sid code)) .done
        ((t'.setStream sid { st with send := some .resetSent }).pushBack
          (.resetStream sid code st.sendOffset))
  | acknowledged {f : StreamFrame} {st : StreamState} (hst : t.streams.get f.streamId = some st) :
      StepCases t (.acknowledged f) .done (t.setStream f.streamId (acknowledged st f))
  | write {state : ConnectionState} {kind : Option ApplicationPacketKind} {sid : Nat} {data : Bytes}
      {fin actualFin : Bool} {st : StreamState} {len : Nat}
      (hsendable : sendable state kind = true) (hst : t.streams.get sid = some st)
      (hsend : st.send = some .ready ∨ st.send = some .send ∨ st.send = some .dataSent)
      (hlen : len = t.writeLen st data) (hfin : actualFin = (fin && len == data.length))
      (hany : 0 < len ∨ actualFin = true) :
      StepCases t (.send state kind sid data fin) (.sent len)
        { t.setStream sid (written st len actualFin) with
          flowControl := t.flowControl.onDataSent len
          pendingFrames := t.pendingFrames ++
            [(.applicationData, .stream ⟨sid, st.sendOffset, actualFin, data.take len⟩)] }
  | read {sid bufLen : Nat} {st st' : StreamState} {res : Except QuicError (Bytes × Bool)}
      (hst : t.streams.get sid = some st) (hread : receiveRead st sid bufLen = (res, st')) :
      StepCases t (.recv sid bufLen) (readResponse res) (t.setStream sid st')

/-! ## Every step is of one of these kinds -/

variable {t u : Transport}

theorem processStream_cases {f : StreamFrame} (hnum : t.streams.Numbered)
    (h : t.processStream f = (.ok (), u)) : StepCases t (.frame (.stream f)) .done u := by
  unfold processStream at h
  split at h
  · cases h
  · next t' hacc =>
    have hacc' := acceptNamed_spec hnum hacc
    split at h
    · next hnone => exact absurd hacc'.isSome (by simp [hnone])
    · next st hst =>
      obtain ⟨hok, rfl⟩ := Prod.mk.inj h
      exact .stream hacc' hst (Prod.ext hok rfl)

theorem processResetStream_cases {code finalSize : Nat} (hnum : t.streams.Numbered)
    (h : t.processResetStream sid code finalSize = (.ok (), u)) :
    StepCases t (.frame (.resetStream sid code finalSize)) .done u := by
  unfold processResetStream at h
  split at h
  · cases h
  · next t' hacc =>
    have hacc' := acceptNamed_spec hnum hacc
    split at h
    · next hnone => exact absurd hacc'.isSome (by simp [hnone])
    · next st hst =>
      obtain ⟨hok, rfl⟩ := Prod.mk.inj h
      exact .reset hacc' hst (Prod.ext hok rfl)

theorem processStopSending_cases {code : Nat} (hnum : t.streams.Numbered)
    (h : t.processStopSending sid code = (.ok (), u)) :
    StepCases t (.frame (.stopSending sid code)) .done u := by
  unfold processStopSending at h
  split at h
  · cases h
  · next t' hacc =>
    split at h
    · cases h
    · next st hst =>
      split at h
      · cases h
      · next hsend =>
        obtain ⟨-, rfl⟩ := Prod.mk.inj h
        exact .stopSending (acceptNamed_spec hnum hacc) hst
          (by simpa [Option.isSome_iff_ne_none] using hsend)

@[simp] theorem updateSendMax_recvView (st : StreamState) (n : Nat) :
    ({ st with flowControl := st.flowControl.updateSendMax n } : StreamState).recvView =
      st.recvView := by
  unfold FlowControl.updateSendMax StreamState.recvView
  split <;> rfl

theorem updateFromBlocked_received (fc : FlowControl) (n : Nat) :
    (fc.updateFromBlocked n).2.received = fc.received := by
  grind [FlowControl.updateFromBlocked]

theorem processFrame_quiet (h : t.processFrame frame = (.ok (), u))
    (hquiet : IsQuiet (.frame frame) .done) : SameStreams t u := by
  cases frame with
  | stream _ | resetStream _ _ _ => exact hquiet.elim
  | stopSending _ _ => exact hquiet.elim
  | maxData n =>
    obtain ⟨-, rfl⟩ := Prod.mk.inj h
    refine (SameStreams.refl t).setFlowControl ?_
    unfold FlowControl.updateSendMax
    split <;> rfl
  | maxStreamData sid n =>
    simp only [processFrame] at h
    split at h
    · grind [SameStreams.refl]
    · next st hst =>
      obtain ⟨-, rfl⟩ := Prod.mk.inj h
      exact SameStreams.setStream hst (updateSendMax_recvView st n) rfl
  | maxStreams bidirectional n =>
    simp only [processFrame] at h
    split at h
    · cases h
    split at h
    · obtain ⟨-, rfl⟩ := Prod.mk.inj h
      unfold StreamManager.updateMaxBidiStreams
      split
      · exact SameStreams.setStreams (fun _ => rfl)
          fun hn => hn.congr rfl rfl rfl (fun d => by cases d <;> rfl)
            (fun d => by cases d <;> rfl) fun _ => rfl
      · exact SameStreams.refl t
    · obtain ⟨-, rfl⟩ := Prod.mk.inj h
      unfold StreamManager.updateMaxUniStreams
      split
      · exact SameStreams.setStreams (fun _ => rfl)
          fun hn => hn.congr rfl rfl rfl (fun d => by cases d <;> rfl)
            (fun d => by cases d <;> rfl) fun _ => rfl
      · exact SameStreams.refl t
  | dataBlocked n =>
    have hfc := (SameStreams.refl t).setFlowControl
      (updateFromBlocked_received t.flowControl n)
    simp only [processFrame] at h
    split at h
    · obtain ⟨-, rfl⟩ := Prod.mk.inj h
      exact hfc
    · obtain ⟨-, rfl⟩ := Prod.mk.inj h
      exact hfc.pushBack fun _ => rfl
  | streamDataBlocked sid n =>
    simp only [processFrame] at h
    split at h
    · grind [SameStreams.refl]
    · next st hst =>
      split at h
      · grind [SameStreams.refl]
      · have hset : SameStreams t (t.setStream sid
            { st with flowControl := (st.flowControl.updateFromBlocked n).2 }) :=
          SameStreams.setStream hst
            (by simp [StreamState.recvView, updateFromBlocked_received]) rfl
        split at h
        · grind
        · obtain ⟨-, rfl⟩ := Prod.mk.inj h
          exact hset.pushBack fun _ => rfl
  | streamsBlocked bidirectional n =>
    simp only [processFrame] at h
    split at h
    · obtain ⟨-, rfl⟩ := Prod.mk.inj h
      exact (SameStreams.refl t).pushBack fun _ => rfl
    · grind [SameStreams.refl]
  | _ =>
    obtain ⟨-, rfl⟩ := Prod.mk.inj h
    exact SameStreams.refl t

theorem applyPeerLimits_same (limits : PeerLimits) : SameStreams t (t.applyPeerLimits limits) := by
  have hget : ∃ sendMax : Nat → Nat, ∀ sid, (t.applyPeerLimits limits).streams.get sid =
      (t.streams.get sid).map fun st =>
        { st with flowControl := st.flowControl.setSendMax (sendMax sid) } :=
    ⟨_, fun sid => OrdMap.find?_map _ _ sid⟩
  obtain ⟨sendMax, hget⟩ := hget
  refine ⟨fun sid => ?_, fun sid => ?_, rfl, fun _ => rfl, fun hn => ?_⟩
  · rw [hget, Option.map_map]
    rfl
  · rw [hget, Option.map_map]
    rfl
  · exact hn.congr rfl rfl rfl (fun d => by cases d <;> rfl) (fun d => by cases d <;> rfl)
      fun j => by rw [hget, Option.isSome_map]

theorem extendStream_same (sid : Nat) : SameStreams t (t.extendStream sid) := by
  unfold extendStream
  split
  · exact SameStreams.refl t
  · next st hst =>
    split
    · exact SameStreams.refl t
    · split
      · exact SameStreams.refl t
      · refine SameStreams.pushBack ?_ fun _ => rfl
        exact SameStreams.setStream hst rfl rfl

theorem generateFlowControlUpdates_same : SameStreams t t.generateFlowControlUpdates := by
  have hfold : ∀ (sids : List Nat) (u : Transport), SameStreams t u →
      SameStreams t (sids.foldl extendStream u) := by
    intro sids
    induction sids with
    | nil => exact fun u hu => hu
    | cons sid rest ih => exact fun u hu => ih _ (hu.trans (extendStream_same sid))
  apply hfold
  split
  · exact SameStreams.refl t
  · refine SameStreams.pushBack ?_ fun _ => rfl
    exact (SameStreams.refl t).setFlowControl rfl

theorem generateStreamLimitUpdates_same : SameStreams t t.generateStreamLimitUpdates := by
  have htaken : SameStreams t { t with streams := t.streams.takeMaxStreamsUpdates.2 } :=
    SameStreams.setStreams (fun _ => rfl)
      fun hn => hn.congr rfl rfl rfl (fun d => by cases d <;> rfl) (fun d => by cases d <;> rfl)
        fun _ => rfl
  unfold generateStreamLimitUpdates
  dsimp only
  split <;> split
  · exact htaken
  · exact htaken.pushBack fun _ => rfl
  · exact htaken.pushBack fun _ => rfl
  · exact (htaken.pushBack fun _ => rfl).pushBack fun _ => rfl

theorem streamSend_cases {len : Nat} (h : t.streamSend state kind sid data fin = (.ok len, u)) :
    StepCases t (.send state kind sid data fin) (.sent len) u := by
  unfold streamSend at h
  split at h
  · cases h
  next hsendable =>
  split at h
  · cases h
  · next st hst =>
    split at h
    · cases h
    · next hsome =>
      split at h
      · cases h
      · next hopen =>
        have hsend : st.send = some .ready ∨ st.send = some .send ∨ st.send = some .dataSent := by
          cases hs : st.send with
          | none => simp [hs] at hsome
          | some state => cases state <;> simp [hs] at hopen ⊢
        dsimp only at h
        split at h
        · next hany =>
          obtain ⟨hlen, rfl⟩ := Prod.mk.inj h
          obtain rfl := Except.ok.inj hlen
          exact .write (by simpa using hsendable) hst hsend rfl rfl (by simpa using hany)
        · next hnone =>
          obtain ⟨hlen, rfl⟩ := Prod.mk.inj h
          obtain rfl := Except.ok.inj hlen
          refine .quiet ?_ (SameStreams.refl t)
          simp only [Bool.or_eq_true, decide_eq_true_eq, not_or] at hnone
          exact Nat.eq_zero_of_not_pos hnone.1

theorem streamSend_error {e : QuicError}
    (h : t.streamSend state kind sid data fin = (.error e, u)) : u = t := by
  grind [streamSend]

theorem streamRecv_cases {bufLen : Nat} {res : Except QuicError (Bytes × Bool)}
    (h : t.streamRecv sid bufLen = (res, u)) :
    StepCases t (.recv sid bufLen) (readResponse res) u := by
  unfold streamRecv at h
  split at h
  · obtain ⟨rfl, rfl⟩ := Prod.mk.inj h
    exact .quiet trivial (SameStreams.refl _)
  · next st hst =>
    obtain ⟨rfl, rfl⟩ := Prod.mk.inj h
    exact .read hst rfl

theorem step_cases (hnum : t.streams.Numbered)
    (h : t.step e = some (r, u)) : StepCases t e r u := by
  cases e with
  | frame frame =>
    simp only [step] at h
    split at h
    · next t' hframe =>
      obtain ⟨rfl, rfl⟩ := Prod.mk.inj (Option.some.inj h)
      cases frame with
      | stream f => exact processStream_cases hnum hframe
      | resetStream sid code finalSize => exact processResetStream_cases hnum hframe
      | stopSending sid code => exact processStopSending_cases hnum hframe
      | _ => exact .quiet trivial (processFrame_quiet hframe trivial)
    · cases h
  | acknowledged f =>
    obtain ⟨rfl, rfl⟩ := Prod.mk.inj (Option.some.inj h)
    unfold acknowledgeStreamFrame
    split
    · exact .quiet trivial (SameStreams.refl t)
    · next st hst => exact .acknowledged hst
  | peerLimits limits =>
    obtain ⟨rfl, rfl⟩ := Prod.mk.inj (Option.some.inj h)
    exact .quiet trivial (applyPeerLimits_same limits)
  | openBidi | openUni =>
    obtain ⟨_, _, _, hopen, rfl, rfl⟩ | ⟨rfl, _, rfl⟩ := step_open (by simp) h
    · obtain ⟨hn, hc⟩ := hopen.creates hnum
      exact .opened (by simp) hn hc
    · exact .quiet trivial (SameStreams.refl _)
  | send state kind sid data fin =>
    simp only [step] at h
    split at h
    · next hsend =>
      grind [streamSend_cases]
    · next hsend =>
      obtain ⟨rfl, rfl⟩ := Prod.mk.inj (Option.some.inj h)
      rw [streamSend_error hsend]
      exact .quiet trivial (SameStreams.refl t)
  | recv sid bufLen =>
    simp only [step] at h
    split at h
    · next hrecv =>
      obtain ⟨rfl, rfl⟩ := Prod.mk.inj (Option.some.inj h)
      exact streamRecv_cases hrecv
    · next hrecv =>
      obtain ⟨rfl, rfl⟩ := Prod.mk.inj (Option.some.inj h)
      exact streamRecv_cases hrecv
  | flowControlUpdates =>
    obtain ⟨rfl, rfl⟩ := Prod.mk.inj (Option.some.inj h)
    exact .quiet trivial generateFlowControlUpdates_same
  | streamLimitUpdates =>
    obtain ⟨rfl, rfl⟩ := Prod.mk.inj (Option.some.inj h)
    exact .quiet trivial generateStreamLimitUpdates_same

theorem StepCases.numbered
    (h : StepCases t e r u) (hnum : t.streams.Numbered) : u.streams.Numbered := by
  cases h with
  | quiet _ hsame => exact hsame.numbered hnum
  | opened _ hn _ => exact hn
  | stream hacc hst | reset hacc hst | stopSending hacc hst =>
    exact hacc.numbered.set _ (by simp [hst])
  | acknowledged hst | write _ hst | read hst => exact hnum.set _ (by simp [hst])

end Transport

end Starfish.Quic
