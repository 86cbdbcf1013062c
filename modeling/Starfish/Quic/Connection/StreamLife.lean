import Starfish.Quic.Connection.Recovery
import Starfish.Quic.Connection.StreamStates

/-!
# Streams from creation to collection

The streams of a connection together with the packets that carry their frames. Over whole
runs it is settled which steps keep to the state machines of RFC 9000, section 3, and
which do not: the handlers of STOP_SENDING and RESET_STREAM assign the new state without
looking at the old one, and nothing handles the acknowledgement of a RESET_STREAM.
-/

namespace Starfish.Quic

/-! ## The machine -/

/-- The streams of a connection, with the frames of the packets that are under way. -/
structure StreamLife where
  transport : Transport
  sentFrames : OrdMap (List Frame)

def TransportEvent.isCall : TransportEvent → Bool
  | .frame _ | .acknowledged _ => false
  | _ => true

inductive StreamLifeEvent
  /-- A frame of the peer; an error is reported to the caller, and what was changed stays. -/
  | frame (frame : Frame)
  | call (e : TransportEvent)
  | gcClosedStreams
  /-- A packet is sent with `frames`, and `rest` stays in the queue. -/
  | transmit (pn : Nat) (frames : List Frame) (rest : List (PacketNumberSpace × Frame))
  | packetAcked (pn : Nat)
  /-- The packet is declared lost, or its frames are requeued for another reason. -/
  | packetLost (pn : Nat)

namespace StreamLife

def new (side : Side) (maxBidi maxUni initialMaxStreamData initialMaxData : Nat) : StreamLife where
  transport := .new side maxBidi maxUni initialMaxStreamData initialMaxData
  sentFrames := .empty

def acknowledgeFrame (t : Transport) : Frame → Transport
  | .stream frame => t.acknowledgeStreamFrame frame
  | _ => t

def fromQueue (t : Transport) (frames : List Frame) (rest : List (PacketNumberSpace × Frame)) :
    Bool :=
  (frames ++ rest.map Prod.snd).all fun f =>
    f.resetId.isNone || (t.pendingFrames.map Prod.snd).contains f

def step (s : StreamLife) : StreamLifeEvent → Option (TransportResponse × StreamLife)
  | .frame frame =>
    match s.transport.processFrame frame with
    | (.ok (), t) => some (.done, { s with transport := t })
    | (.error e, t) => some (.refused e, { s with transport := t })
  | .call e =>
    if e.isCall then
      match s.transport.step e with
      | none => none
      | some (r, t) => some (r, { s with transport := t })
    else none
  | .gcClosedStreams =>
    let t := s.transport
    some (.done, { s with transport := { t with streams := t.streams.gcClosedStreams.2 } })
  | .transmit pn frames rest =>
    if fromQueue s.transport frames rest then
      some (.done, ⟨{ s.transport with pendingFrames := rest }, s.sentFrames.insert pn frames⟩)
    else none
  | .packetAcked pn =>
    match s.sentFrames.find? pn with
    | none => none
    | some frames =>
      some (.done, ⟨frames.foldl acknowledgeFrame s.transport, s.sentFrames.erase pn⟩)
  | .packetLost pn =>
    match s.sentFrames.find? pn with
    | none => none
    | some frames =>
      some (.done, ⟨{ s.transport with
        pendingFrames := s.transport.pendingFrames ++ retransmittable .applicationData frames },
        s.sentFrames.erase pn⟩)

def ResetUnderWay (s : StreamLife) (sid : Nat) : Prop :=
  sid ∈ s.transport.queuedResets ∨
    ∃ pn frames, s.sentFrames.find? pn = some frames ∧ sid ∈ resetIds frames

/-- What holds in every run: a stream whose RESET_STREAM is under way is being reset. -/
structure Sound (s : StreamLife) : Prop where
  tabled : Tabled s.transport.streams
  resetting : ∀ sid, s.ResetUnderWay sid → Resetting s.transport.streams sid

def ackedResets (s : StreamLife) : StreamLifeEvent → List Nat
  | .packetAcked pn => resetIds ((s.sentFrames.find? pn).getD [])
  | _ => []

/-- STOP_SENDING and RESET_STREAM find the part they act on not done yet, and no packet with a
RESET_STREAM is acknowledged. -/
def Proper (s : StreamLife) : StreamLifeEvent → Prop
  | .frame frame => ProperFrame s.transport frame
  | .packetAcked pn => ackedResets s (.packetAcked pn) = []
  | _ => True

/-- The states of section 3 of RFC 9000 in one step: a part that is done stays as it is, and an
acknowledged reset ends the send part, so that the stream can be collected once the receive
part is done as well. -/
structure StatesFollow (s : StreamLife) (e : StreamLifeEvent) (s' : StreamLife) : Prop where
  send_kept : ∀ sid st st', s.transport.streams.get sid = some st →
    s'.transport.streams.get sid = some st' → st.sendTerminal = true → st'.send = st.send
  recv_kept : ∀ sid st st', s.transport.streams.get sid = some st →
    s'.transport.streams.get sid = some st' → st.recvTerminal = true → st'.recv = st.recv
  reset_acked : ∀ sid ∈ ackedResets s e, ∀ st', s'.transport.streams.get sid = some st' →
    st'.sendTerminal = true ∧ (st'.recvTerminal = true → StreamManager.isClosed st' = true)

/-! ## Steps -/

section

variable {s s' : StreamLife} {e : StreamLifeEvent} {r : TransportResponse}

theorem find?_of_erase {m : OrdMap (List Frame)} {pn n : Nat} {frames : List Frame}
    (h : (m.erase pn).find? n = some frames) : m.find? n = some frames := by
  grind [OrdMap.find?_erase]

variable {t : Transport} {proper : Prop}

theorem acknowledgeFrame_follows (h : Tabled t.streams) (f : Frame) :
    TransportFollows proper t (acknowledgeFrame t f) := by
  unfold acknowledgeFrame
  split
  · exact .acknowledgeStreamFrame h _
  · exact .quiet (.refl t) h

theorem acknowledgeFrame_get {f : Frame} {sid : Nat}
    (h : ((acknowledgeFrame t f).streams.get sid).isSome) : (t.streams.get sid).isSome := by
  unfold acknowledgeFrame at h
  grind [Transport.acknowledgeStreamFrame, Transport.setStream, StreamManager.get_set]

theorem foldl_acknowledgeFrame_follows (h : Tabled t.streams) (frames : List Frame) :
    TransportFollows proper t (frames.foldl acknowledgeFrame t) := by
  induction frames using List.reverseRecOn with
  | nil => exact .quiet (.refl t) h
  | append_singleton frames f ih =>
    rw [List.foldl_concat]
    exact ih.trans (acknowledgeFrame_follows ih.streams.tabled f) fun _ => acknowledgeFrame_get

theorem call_follows {t' : Transport} (h : Tabled t.streams) {e : TransportEvent}
    (hcall : e.isCall = true) (hstep : t.step e = some (r, t')) : TransportFollows proper t t' := by
  cases e with
  | frame => cases hcall
  | acknowledged => cases hcall
  | peerLimits limits =>
    cases hstep
    exact .quiet (applyPeerLimits_quiet t limits) h
  | openBidi | openUni =>
    obtain ⟨_, _, _, hopen, rfl, rfl⟩ | ⟨rfl, _, rfl⟩ := Transport.step_open (by simp) hstep
    · obtain ⟨htabled, hextends⟩ := openLocal_extends h hopen
      exact .of_queue (hextends.follows htabled) rfl
    · exact .quiet (.refl _) h
  | send state kind sid data fin =>
    grind [TransportFollows.streamSend, Transport.step]
  | recv sid bufLen =>
    grind [TransportFollows.streamRecv, Transport.step]
  | flowControlUpdates =>
    cases hstep
    exact .quiet (generateFlowControlUpdates_quiet t) h
  | streamLimitUpdates =>
    cases hstep
    exact .quiet (generateStreamLimitUpdates_quiet t) h

theorem step_follows (h : s.Sound) (hstep : s.step e = some (r, s')) :
    Follows (Proper s e) s.transport.streams s'.transport.streams ∧
      ∀ sid, s'.ResetUnderWay sid →
        s.ResetUnderWay sid ∨ Resetting s'.transport.streams sid := by
  -- A step of the transport that leaves the sent packets alone.
  have htransport : ∀ {t : Transport}, TransportFollows (Proper s e) s.transport t →
      Follows (Proper s e) s.transport.streams t.streams ∧
        ∀ sid, ResetUnderWay ⟨t, s.sentFrames⟩ sid →
          s.ResetUnderWay sid ∨ Resetting t.streams sid := by
    intro t ht
    refine ⟨ht.streams, fun sid hsid => ?_⟩
    obtain hsid | hsid := hsid
    · exact (ht.queued sid hsid).imp_left .inl
    · exact .inl (.inr hsid)
  cases e with
  | frame frame =>
    have hframe := TransportFollows.processFrame h.tabled frame
    simp only [step] at hstep
    split at hstep <;> next heq =>
      cases hstep
      rw [heq] at hframe
      exact htransport hframe
  | call e =>
    grind [cases Sound, step, call_follows]
  | gcClosedStreams =>
    cases hstep
    exact htransport (.of_queue (gcClosedStreams_follows h.tabled) rfl)
  | transmit pn frames rest =>
    simp only [step] at hstep
    split at hstep
    · next hfrom =>
      cases hstep
      refine ⟨(SameStates.refl _).follows h.tabled, fun sid hsid => .inl ?_⟩
      have hqueued : ∀ f ∈ frames ++ rest.map Prod.snd, f.resetId = some sid →
          s.ResetUnderWay sid := by
        intro f hf hid
        have hmem := List.all_eq_true.mp hfrom f hf
        rw [hid, Option.isNone_some, Bool.false_or, List.contains_iff_mem] at hmem
        exact .inl (List.mem_filterMap.mpr ⟨f, hmem, hid⟩)
      obtain hsid | ⟨n, sent, hsent, hsid⟩ := hsid
      · obtain ⟨f, hf, hid⟩ := List.mem_filterMap.mp hsid
        exact hqueued f (List.mem_append_right _ hf) hid
      · rw [OrdMap.find?_insert] at hsent
        split at hsent
        · cases hsent
          obtain ⟨f, hf, hid⟩ := List.mem_filterMap.mp hsid
          exact hqueued f (List.mem_append_left _ hf) hid
        · exact .inr ⟨n, sent, hsent, hsid⟩
    · cases hstep
  | packetAcked pn =>
    simp only [step] at hstep
    split at hstep
    · cases hstep
    · next frames _ =>
      cases hstep
      obtain ⟨hfollows, hqueued⟩ := htransport (foldl_acknowledgeFrame_follows h.tabled frames)
      refine ⟨hfollows, fun sid hsid => hqueued sid (hsid.imp_right ?_)⟩
      rintro ⟨n, sent, hsent, hsid⟩
      exact ⟨n, sent, find?_of_erase hsent, hsid⟩
  | packetLost pn =>
    simp only [step] at hstep
    split at hstep
    · cases hstep
    · next frames hframes =>
      cases hstep
      refine ⟨(SameStates.refl _).follows h.tabled, fun sid hsid => .inl ?_⟩
      obtain hsid | ⟨n, sent, hsent, hsid⟩ := hsid
      · obtain ⟨f, hf, hid⟩ := List.mem_filterMap.mp hsid
        rw [List.map_append, List.mem_append] at hf
        obtain hf | hf := hf
        · exact .inl (List.mem_filterMap.mpr ⟨f, hf, hid⟩)
        · have hmem : f ∈ frames := by
            simp only [retransmittable] at hf
            grind
          exact .inr ⟨pn, frames, hframes, List.mem_filterMap.mpr ⟨f, hmem, hid⟩⟩
      · exact .inr ⟨n, sent, find?_of_erase hsent, hsid⟩

theorem Sound.step (h : s.Sound) (hstep : s.step e = some (r, s')) : s'.Sound := by
  obtain ⟨hfollows, hunder⟩ := step_follows h hstep
  refine ⟨hfollows.tabled, fun sid hsid => ?_⟩
  grind [cases Follows, cases Sound]

theorem resetting_of_acked (h : s.Sound) (hstep : s.step e = some (r, s')) {sid : Nat}
    (hsid : sid ∈ ackedResets s e) : Resetting s'.transport.streams sid := by
  apply (step_follows h hstep).1.keeps
  apply h.resetting
  cases e with
  | packetAcked pn =>
    dsimp only [ackedResets] at hsid
    cases hfind : s.sentFrames.find? pn with
    | none =>
      rw [hfind] at hsid
      cases hsid
    | some frames =>
      rw [hfind] at hsid
      exact .inr ⟨pn, frames, hfind, hsid⟩
  | _ => cases hsid

/-! ## The condition -/

theorem properFrame_of_follow {frame : Frame} (hstep : s.step (.frame frame) = some (r, s'))
    (hfollow : StatesFollow s (.frame frame) s') : ProperFrame s.transport frame := by
  have hs' : s'.transport = (s.transport.processFrame frame).2 := by
    grind [step]
  have hacc : ∀ {sid : Nat} {st : StreamState}, s.transport.streams.get sid = some st →
      s.transport.acceptNamed sid = .ok s.transport := by
    intro sid st hst
    rw [Transport.acceptNamed, hst]
    rfl
  unfold ProperFrame
  split
  · next sid code =>
    intro st hst
    cases hterminal : st.sendTerminal with
    | false => rfl
    | true =>
      have hsome : st.send.isNone = false := by
        unfold StreamState.sendTerminal at hterminal
        cases hsend : st.send with
        | none =>
          rw [hsend] at hterminal
          cases hterminal
        | some => rfl
      have hget : s'.transport.streams.get sid = some { st with send := some .resetSent } := by
        simp only [hs', Transport.processFrame, Transport.processStopSending, hacc hst, hst, hsome]
        exact (StreamManager.get_set _ _ _ _).trans (if_pos rfl)
      have hkept := hfollow.send_kept sid st _ hst hget hterminal
      unfold StreamState.sendTerminal at hterminal
      rw [← hkept] at hterminal
      cases hterminal
  · next sid code finalSize =>
    intro st hst
    cases hterminal : st.recvTerminal with
    | false => exact .inl rfl
    | true =>
      refine .inr fun hok => ?_
      have hget : s'.transport.streams.get sid =
          some (receiveResetStream st sid code finalSize).2 := by
        simp only [hs', Transport.processFrame, Transport.processResetStream, hacc hst, hst]
        exact (StreamManager.get_set _ _ _ _).trans (if_pos rfl)
      grind [cases StatesFollow, receiveResetStream_terminal]
  · trivial

theorem statesFollow_iff (h : s.Sound) (hstep : s.step e = some (r, s')) :
    StatesFollow s e s' ↔ Proper s e := by
  have hfollows := (step_follows h hstep).1
  constructor
  · intro hfollow
    cases e with
    | frame frame => exact properFrame_of_follow hstep hfollow
    | packetAcked pn =>
      apply List.eq_nil_iff_forall_not_mem.mpr
      intro sid hsid
      obtain ⟨st, hst, hreset⟩ := resetting_of_acked h hstep hsid
      have hterminal := (hfollow.reset_acked sid hsid st hst).1
      rw [StreamState.sendTerminal, hreset] at hterminal
      cases hterminal
    | _ => trivial
  · intro hproper
    have hmoves := hfollows.advances hproper
    refine ⟨fun sid st st' hst hst' => (hmoves sid st st' hst hst').send_eq,
      fun sid st st' hst hst' => (hmoves sid st st' hst hst').recv_eq, fun sid hsid => ?_⟩
    cases e with
    | packetAcked pn =>
      rw [show ackedResets s (.packetAcked pn) = [] from hproper] at hsid
      cases hsid
    | _ => cases hsid

end

theorem new_sound (side : Side) {maxBidi maxUni : Nat} (initialMaxStreamData initialMaxData : Nat)
    (hbidi : maxBidi ≤ u64Max) (huni : maxUni ≤ u64Max) :
    (new side maxBidi maxUni initialMaxStreamData initialMaxData).Sound where
  tabled := ⟨_, [], StreamTable.new_consistent side initialMaxStreamData hbidi huni⟩
  resetting := by
    rintro sid (hsid | ⟨pn, frames, hfind, -⟩)
    · cases hsid
    · cases hfind

end StreamLife

/-- In every run, whatever the peer sends and the application calls, the next step follows the
stream states of RFC 9000 exactly if it is a proper one. The three steps that are not are a
STOP_SENDING for a send part that is done, a RESET_STREAM for a receive part that is done, and
the acknowledgement of a RESET_STREAM. -/
theorem stream_states_follow_iff (side : Side) {maxBidi maxUni : Nat}
    (initialMaxStreamData initialMaxData : Nat) (hbidi : maxBidi ≤ u64Max) (huni : maxUni ≤ u64Max)
    {tr : List (StreamLifeEvent × TransportResponse)} {s s' : StreamLife}
    (hrun : Run StreamLife.step (fun _ _ => True)
      (StreamLife.new side maxBidi maxUni initialMaxStreamData initialMaxData) tr s)
    {e : StreamLifeEvent} {r : TransportResponse} (hstep : s.step e = some (r, s')) :
    StreamLife.StatesFollow s e s' ↔ StreamLife.Proper s e := by
  have hsound : s.Sound := by
    apply hrun.invariant (I := fun _ s => s.Sound)
    · exact StreamLife.new_sound side initialMaxStreamData initialMaxData hbidi huni
    · intro _ _ _ _ _ h _ hstep
      exact h.step hstep
  exact StreamLife.statesFollow_iff hsound hstep

/-- Reading the peer's FIN takes the receive part to its last state. -/
theorem reading_follows_states :
    ∃ tr s r s', Run StreamLife.step (fun _ _ => True) (StreamLife.new .server 1 1 10 10) tr s ∧
      s.step (.call (.recv 0 1)) = some (r, s') ∧
      StreamLife.StatesFollow s (.call (.recv 0 1)) s' := by
  have hnil : Run StreamLife.step (fun _ _ => True) (StreamLife.new .server 1 1 10 10) []
    (StreamLife.new .server 1 1 10 10) := .nil
  have hrun := hnil.push (.frame (.stream ⟨0, 0, true, []⟩)) rfl trivial
  exact ⟨_, _, _, _, hrun, rfl,
    (stream_states_follow_iff .server 10 10 (by decide) (by decide) hrun rfl).mpr trivial⟩

/-! ## The three steps -/

namespace StreamLife

def statesAfter (side : Side) (events : List StreamLifeEvent) (sid : Nat) :
    Option (Option SendState × Option RecvState) := do
  let s ← events.foldlM (fun s e => (s.step e).map Prod.snd) (new side 1 1 10 10)
  let st ← s.transport.streams.get sid
  return (st.send, st.recv)

end StreamLife

def finishedSending : List StreamLifeEvent :=
  [.call .openBidi, .call (.send .connected (some .oneRtt) 0 [] true),
    .transmit 0 [.stream ⟨0, 0, true, []⟩] [], .packetAcked 0]

def finishedReading : List StreamLifeEvent :=
  [.frame (.stream ⟨0, 0, true, []⟩), .call (.recv 0 1)]

def resetting : List StreamLifeEvent :=
  finishedReading ++ [.frame (.stopSending 0 7), .transmit 0 [.resetStream 0 7 0] []]

/-- A late STOP_SENDING takes a send part out of `DataRecvd`, a late RESET_STREAM takes a receive
part out of `DataRead`, and the acknowledgement of a RESET_STREAM leaves the send part in
`ResetSent`. -/
theorem terminal_states_left :
    StreamLife.statesAfter .client finishedSending 0 = some (some .dataRecvd, some .recv) ∧
    StreamLife.statesAfter .client (finishedSending ++ [.frame (.stopSending 0 7)]) 0 =
      some (some .resetSent, some .recv) ∧
    StreamLife.statesAfter .server finishedReading 0 = some (some .ready, some .dataRead) ∧
    StreamLife.statesAfter .server (finishedReading ++ [.frame (.resetStream 0 7 0)]) 0 =
      some (some .ready, some .resetRecvd) ∧
    StreamLife.statesAfter .server (resetting ++ [.packetAcked 0, .gcClosedStreams]) 0 =
      some (some .resetSent, some .dataRead) := by
  decide +kernel

end Starfish.Quic
