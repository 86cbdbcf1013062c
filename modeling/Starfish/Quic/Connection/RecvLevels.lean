import Starfish.Quic.Connection.Credit

/-!
# The limits advertised to the peer

The connection and every stream that can receive are levels of flow control. A level moves
its limit by two rules: a round of updates computes it from what was received, and a BLOCKED
hint of the peer adds a window to the limit itself. Whenever a rule is applied a frame with the
new limit is queued. Here every step of the streams is shown to be a move of each level, with
the limits that the frames it queues advertise.
-/

namespace Starfish.Quic

/-! ## Levels -/

inductive Level
  | connection
  | stream (sid : Nat)
deriving DecidableEq

def Transport.level (t : Transport) : Level → Option FlowControl
  | .connection => some t.flowControl
  | .stream sid => (t.streams.get sid).bind fun st =>
    if st.recv.isSome then some st.flowControl else none

def Credit.level (c : Credit) : Level → Option FlowControl
  | .connection => some c.connection
  | .stream sid => (c.account sid).bind fun a => if a.receives then some a.flowControl else none

theorem Transport.credit_level (t : Transport) (lvl : Level) : t.credit.level lvl = t.level lvl := by
  cases lvl with
  | connection => rfl
  | stream sid =>
    dsimp only [Credit.level, level]
    cases hget : t.streams.get sid with
    | none => rw [credit_account_none hget]; rfl
    | some st => rw [credit_account hget]; rfl

def Frame.limitFor (lvl : Level) : Frame → Option Nat
  | .maxData n => if lvl = .connection then some n else none
  | .maxStreamData sid n => if lvl = .stream sid then some n else none
  | _ => none

def limitsFor (lvl : Level) (frames : List Frame) : List Nat := frames.filterMap (Frame.limitFor lvl)

namespace StreamLifeEvent

/-- The limit at which the peer says it is blocked. -/
def hint : StreamLifeEvent → Level → Option Nat
  | .frame (.dataBlocked n), .connection => some n
  | .frame (.streamDataBlocked sid n), .stream j => if j = sid then some n else none
  | _, _ => none

def isUpdateRound : StreamLifeEvent → Bool
  | .call .flowControlUpdates => true
  | _ => false

def isLimitEvent : StreamLifeEvent → Bool
  | .frame (.dataBlocked _) | .frame (.streamDataBlocked _ _) | .call .flowControlUpdates => true
  | _ => false

theorem hint_of_not_isLimitEvent {e : StreamLifeEvent} (h : e.isLimitEvent = false) (lvl : Level) :
    e.hint lvl = none := by
  unfold hint
  split
  · cases h
  · cases h
  · rfl

theorem isUpdateRound_of_not_isLimitEvent {e : StreamLifeEvent} (h : e.isLimitEvent = false) :
    e.isUpdateRound = false := by
  unfold isUpdateRound
  split
  · cases h
  · rfl

end StreamLifeEvent

/-- The limit stays. More may have been received; `checked` says that it was within the limit. -/
structure FlowControl.Quiet (checked : Prop) (fc fc' : FlowControl) : Prop where
  recvMax : fc'.recvMax = fc.recvMax
  received : fc.received ≤ fc'.received
  initialWindow : fc'.initialWindow = fc.initialWindow
  kept : checked → fc'.received = fc.received ∨ fc'.received ≤ fc'.recvMax

theorem FlowControl.Quiet.of_eq {checked : Prop} {fc fc' : FlowControl}
    (hmax : fc'.recvMax = fc.recvMax) (hreceived : fc'.received = fc.received)
    (hwindow : fc'.initialWindow = fc.initialWindow) : fc.Quiet checked fc' :=
  ⟨hmax, Nat.le_of_eq hreceived.symm, hwindow, fun _ => .inl hreceived⟩

theorem FlowControl.Quiet.refl {checked : Prop} (fc : FlowControl) : fc.Quiet checked fc :=
  .of_eq rfl rfl rfl

/-- What a step does to a level, with the hint it is given and the limits it advertises. -/
inductive FlowControl.Moves (checked : Prop) (fc : FlowControl) :
    Option Nat → List Nat → FlowControl → Prop
  | quiet {fc' : FlowControl} (hquiet : fc.Quiet checked fc') : fc.Moves checked none [] fc'
  | update {newMax : Nat} (hmax : fc.shouldSendMax = some newMax) :
      fc.Moves checked none [newMax] (fc.commitMax newMax)
  | blocked (n : Nat) :
      fc.Moves checked (some n) [(fc.updateFromBlocked n).2.recvMax] (fc.updateFromBlocked n).2

inductive LevelStep (checked : Prop) (initial : Nat) (fresh : Prop) (hint : Option Nat)
    (limits : List Nat) : Option FlowControl → Option FlowControl → Prop
  | moves {fc fc' : FlowControl} (hmoves : fc.Moves checked hint limits fc') :
      LevelStep checked initial fresh hint limits (some fc) (some fc')
  | opened {fc' : FlowControl} (hfresh : fresh) (hlimits : limits = [])
      (hmax : fc'.recvMax = initial) (hwindow : fc'.initialWindow = initial)
      (hkept : checked → fc'.received ≤ fc'.recvMax) :
      LevelStep checked initial fresh hint limits none (some fc')
  | absent (hlimits : limits = []) : LevelStep checked initial fresh hint limits none none
  | collected {fc : FlowControl} (hhint : hint = none) (hlimits : limits = []) :
      LevelStep checked initial fresh hint limits (some fc) none

/-! ## Limits that the queue advertises -/

def Credit.announced (c : Credit) (e : StreamLifeEvent) (lvl : Level) : List Nat :=
  match c.level lvl with
  | none => []
  | some fc =>
    match e.hint lvl with
    | some n => [(fc.updateFromBlocked n).2.recvMax]
    | none => if e.isUpdateRound then fc.shouldSendMax.toList else []

theorem Credit.announced_of_not_isLimitEvent {e : StreamLifeEvent} (h : e.isLimitEvent = false)
    (c : Credit) (lvl : Level) : c.announced e lvl = [] := by
  unfold announced
  rw [e.hint_of_not_isLimitEvent h, e.isUpdateRound_of_not_isLimitEvent h]
  cases c.level lvl <;> rfl

theorem Credit.announced_dataBlocked (c : Credit) (n : Nat) (lvl : Level) :
    c.announced (.frame (.dataBlocked n)) lvl =
      if lvl = .connection then [(c.connection.updateFromBlocked n).2.recvMax] else [] := by
  cases lvl with
  | connection => rfl
  | stream sid =>
    unfold announced
    cases c.level (.stream sid) <;> rfl

theorem Credit.announced_streamDataBlocked (c : Credit) (sid n : Nat) (lvl : Level) :
    c.announced (.frame (.streamDataBlocked sid n)) lvl = if lvl = .stream sid then
      ((c.level lvl).map fun fc => (fc.updateFromBlocked n).2.recvMax).toList else [] := by
  unfold announced
  cases lvl with
  | connection => rfl
  | stream j =>
    by_cases hj : j = sid
    · subst hj
      simp only [StreamLifeEvent.hint]
      cases c.level (.stream j) <;> rfl
    · have hlvl : ¬ Level.stream j = .stream sid := fun heq => hj (Level.stream.inj heq)
      simp only [StreamLifeEvent.hint, if_neg hj, if_neg hlvl]
      cases c.level (.stream j) <;> rfl

theorem Credit.announced_flowControlUpdates (c : Credit) (lvl : Level) :
    c.announced (.call .flowControlUpdates) lvl =
      ((c.level lvl).bind FlowControl.shouldSendMax).toList := by
  unfold announced
  cases c.level lvl <;> cases lvl <;> rfl

namespace Transport

def Queues (t t' : Transport) (limits : Level → List Nat) : Prop :=
  ∃ frames, t'.pendingFrames = t.pendingFrames ++ frames ∧
    ∀ lvl, limitsFor lvl (frames.map Prod.snd) = limits lvl

variable {t t' t'' : Transport} {limits limits' : Level → List Nat}

theorem Queues.nothing (h : t'.pendingFrames = t.pendingFrames) : Queues t t' fun _ => [] :=
  ⟨[], by rw [h, List.append_nil], fun _ => rfl⟩

theorem Queues.one {frame : Frame}
    (h : t'.pendingFrames = t.pendingFrames ++ [(.applicationData, frame)])
    (hlimits : ∀ lvl, (frame.limitFor lvl).toList = limits lvl) : Queues t t' limits := by
  refine ⟨_, h, fun lvl => ?_⟩
  grind [limitsFor]

theorem Queues.trans (h : Queues t t' limits) (h' : Queues t' t'' limits') :
    Queues t t'' fun lvl => limits lvl ++ limits' lvl := by
  obtain ⟨frames, hqueue, hlimits⟩ := h
  obtain ⟨frames', hqueue', hlimits'⟩ := h'
  refine ⟨frames ++ frames', by rw [hqueue', hqueue, List.append_assoc], fun lvl => ?_⟩
  grind [limitsFor]

theorem Queues.congr (h : Queues t t' limits) (hlimits : ∀ lvl, limits lvl = limits' lvl) :
    Queues t t' limits' := by
  obtain ⟨frames, hqueue, hold⟩ := h
  exact ⟨frames, hqueue, fun lvl => (hold lvl).trans (hlimits lvl)⟩

theorem level_stream {sid : Nat} {st : StreamState} (h : t.streams.get sid = some st) :
    t.level (.stream sid) = if st.recv.isSome then some st.flowControl else none := by
  rw [level, h, Option.bind_some]

theorem level_stream_none {sid : Nat} (h : t.streams.get sid = none) :
    t.level (.stream sid) = none := by
  rw [level, h, Option.bind_none]

theorem level_setStream (t : Transport) (sid : Nat) (st : StreamState) (lvl : Level) :
    (t.setStream sid st).level lvl = if lvl = .stream sid then
      (if st.recv.isSome then some st.flowControl else none) else t.level lvl := by
  cases lvl with
  | connection => rfl
  | stream j =>
    dsimp only [level, setStream]
    rw [StreamManager.get_set]
    grind

theorem processStreamDataBlocked_level (t : Transport) (sid n : Nat) (lvl : Level) :
    (t.processFrame (.streamDataBlocked sid n)).2.level lvl = if lvl = .stream sid then
      (t.level lvl).map fun fc => (fc.updateFromBlocked n).2 else t.level lvl := by
  have hsilent : t.level (.stream sid) = none → t.level lvl = if lvl = .stream sid then
      (t.level lvl).map fun fc => (fc.updateFromBlocked n).2 else t.level lvl := by
    grind
  simp only [processFrame]
  split
  · next hnone => exact hsilent (level_stream_none hnone)
  · next st hst =>
    have hlevel := level_stream hst
    split
    · next hrecv =>
      simp_all
    · next hrecv =>
      have hsome : st.recv.isSome = true := by simpa [Option.isSome_iff_ne_none] using hrecv
      rw [if_pos hsome] at hlevel
      have hset := level_setStream t sid
        { st with flowControl := (st.flowControl.updateFromBlocked n).2 } lvl
      split <;>
      · refine hset.trans ?_
        split
        · next hlvl => rw [hlvl, hlevel, Option.map_some]
        · rfl

theorem updateFromBlocked_fst (fc : FlowControl) (n : Nat) :
    (fc.updateFromBlocked n).1 = some (fc.updateFromBlocked n).2.recvMax := by
  unfold FlowControl.updateFromBlocked
  split <;> rfl

variable (sid n : Nat)

theorem processStreamDataBlocked_queues :
    Queues t (t.processFrame (.streamDataBlocked sid n)).2
      (t.credit.announced (.frame (.streamDataBlocked sid n))) := by
  have hsilent : t.level (.stream sid) = none → ∀ lvl : Level,
      [] = t.credit.announced (.frame (.streamDataBlocked sid n)) lvl := by
    simp [Credit.announced_streamDataBlocked, credit_level]
  simp only [processFrame]
  split
  · next hnone => exact (Queues.nothing rfl).congr (hsilent (level_stream_none hnone))
  · next st hst =>
    have hlevel := level_stream hst
    split
    · next hrecv =>
      rw [if_neg (by simpa using hrecv)] at hlevel
      exact (Queues.nothing rfl).congr (hsilent hlevel)
    · next hrecv =>
      rw [if_pos (by simpa [Option.isSome_iff_ne_none] using hrecv)] at hlevel
      rw [updateFromBlocked_fst]
      refine Queues.one rfl fun lvl => ?_
      grind [Credit.announced_streamDataBlocked, credit_level, Frame.limitFor]

theorem processDataBlocked_queues :
    Queues t (t.processFrame (.dataBlocked n)).2 (t.credit.announced (.frame (.dataBlocked n))) := by
  simp only [processFrame]
  rw [updateFromBlocked_fst]
  refine Queues.one rfl fun lvl => ?_
  rw [Credit.announced_dataBlocked]
  dsimp only [Frame.limitFor]
  split <;> rfl

theorem processFrame_queues_nothing (htabled : Tabled t.streams) {frame : Frame}
    (h : StreamLifeEvent.isLimitEvent (.frame frame) = false) :
    Queues t (t.processFrame frame).2 fun _ => [] := by
  cases frame with
  | stream f =>
    have hfollows : Follows True t.streams (t.processStream f).2.streams ∧ _ :=
      processStream_follows htabled f
    exact .nothing hfollows.2
  | resetStream sid code finalSize =>
    exact .nothing (processResetStream_follows htabled sid code finalSize).2
  | stopSending sid code =>
    rcases (processStopSending_follows htabled sid code).2 with hsame | ⟨-, finalSize, hreset⟩
    · exact .nothing hsame
    · exact .one hreset fun _ => rfl
  | maxStreamData sid n =>
    simp only [processFrame]
    split <;> exact .nothing rfl
  | maxStreams bidirectional n =>
    simp only [processFrame]
    split
    · exact .nothing rfl
    · split <;> exact .nothing rfl
  | dataBlocked n => cases h
  | streamDataBlocked sid n => cases h
  | streamsBlocked bidirectional n =>
    simp only [processFrame]
    split
    · exact .one rfl fun _ => rfl
    · exact .nothing rfl
  | _ => exact .nothing rfl

/-! ### Rounds of updates -/

theorem extendStream_level_ne {sid : Nat} {lvl : Level} (h : lvl ≠ .stream sid) :
    (t.extendStream sid).level lvl = t.level lvl := by
  rw [← credit_level, ← credit_level, extendStream_credit]
  cases lvl with
  | connection => rfl
  | stream j =>
    dsimp only [Credit.level, Credit.extendOne]
    grind

theorem extendStream_queues (t : Transport) (sid : Nat) :
    Queues t (t.extendStream sid) fun lvl =>
      if lvl = .stream sid then ((t.level lvl).bind FlowControl.shouldSendMax).toList else [] := by
  have hsilent : (t.level (.stream sid)).bind FlowControl.shouldSendMax = none →
      Queues t t fun lvl =>
        if lvl = .stream sid then ((t.level lvl).bind FlowControl.shouldSendMax).toList else [] := by
    intro hnone
    refine (Queues.nothing rfl).congr fun lvl => ?_
    split
    · next hlvl => rw [hlvl, hnone]; rfl
    · rfl
  unfold extendStream
  split
  · next hnone =>
    apply hsilent
    rw [level_stream_none hnone, Option.bind_none]
  · next st hst =>
    have hlevel := level_stream hst
    split
    · next hrecv =>
      rw [if_neg (by simpa using hrecv)] at hlevel
      apply hsilent
      rw [hlevel, Option.bind_none]
    · next hrecv =>
      rw [if_pos (by simpa [Option.isSome_iff_ne_none] using hrecv)] at hlevel
      split
      · next hno =>
        apply hsilent
        rw [hlevel, Option.bind_some, hno]
      · next newMax hmax =>
        refine Queues.one rfl fun lvl => ?_
        grind [Frame.limitFor]

theorem foldl_extendStream_queues {sids : List Nat} (hnodup : sids.Nodup) (t : Transport) :
    Queues t (sids.foldl extendStream t) fun lvl =>
      if lvl ∈ sids.map Level.stream then ((t.level lvl).bind FlowControl.shouldSendMax).toList
      else [] := by
  induction sids generalizing t with
  | nil => exact .nothing rfl
  | cons first rest ih =>
    have hnodup := List.nodup_cons.mp hnodup
    refine ((extendStream_queues t first).trans (ih hnodup.2 _)).congr fun lvl => ?_
    by_cases hfirst : lvl = .stream first
    · grind
    · rw [if_neg hfirst, List.nil_append, extendStream_level_ne hfirst, List.map_cons]
      simp only [List.mem_cons, hfirst, false_or]

theorem generateFlowControlUpdates_queues (t : Transport) :
    Queues t t.generateFlowControlUpdates (t.credit.announced (.call .flowControlUpdates)) := by
  have hstreams : ∀ t' : Transport, t'.streams = t.streams →
      Queues t t' (fun lvl => if lvl = .connection then t.flowControl.shouldSendMax.toList else []) →
      Queues t (t.streams.streams.keys.foldl extendStream t')
        (t.credit.announced (.call .flowControlUpdates)) := by
    intro t' hsame hconn
    refine (hconn.trans (foldl_extendStream_queues t.streams.streams.keys_nodup t')).congr
      fun lvl => ?_
    rw [Credit.announced_flowControlUpdates, credit_level]
    cases lvl with
    | connection => rw [if_pos rfl, if_neg (by simp), List.append_nil]; rfl
    | stream sid =>
      have hlevel : t'.level (.stream sid) = t.level (.stream sid) := by
        rw [level, level, hsame]
      rw [if_neg (by simp), List.nil_append, hlevel]
      split
      · rfl
      · next hnot =>
        have hnone : t.streams.get sid = none := by
          cases hget : t.streams.get sid with
          | none => rfl
          | some st =>
            refine absurd (List.mem_map_of_mem ?_) hnot
            exact OrdMap.mem_keys_iff.mpr (by rw [← StreamManager.get, hget]; rfl)
        rw [level_stream_none hnone]
        rfl
  unfold generateFlowControlUpdates
  split
  · next hno =>
    apply hstreams t rfl
    refine (Queues.nothing rfl).congr fun lvl => ?_
    rw [hno]
    split <;> rfl
  · next newMax hmax =>
    grind [Transport.pushBack, Queues.one, Frame.limitFor]

theorem step_queues_nothing {e : TransportEvent} {r : TransportResponse} (hcall : e.isCall = true)
    (hlimit : StreamLifeEvent.isLimitEvent (.call e) = false) (h : t.step e = some (r, t')) :
    Queues t t' fun _ => [] := by
  cases e with
  | frame => cases hcall
  | acknowledged => cases hcall
  | peerLimits limits =>
    cases h
    exact .nothing rfl
  | openBidi | openUni =>
    obtain ⟨_, _, _, -, rfl, rfl⟩ | ⟨rfl, _, rfl⟩ := step_open (by simp) h <;> exact .nothing rfl
  | send state kind sid data fin =>
    simp only [step] at h
    split at h
    · next hsend =>
      cases h
      unfold streamSend at hsend
      split at hsend
      · cases hsend
      split at hsend
      · cases hsend
      split at hsend
      · cases hsend
      split at hsend
      · cases hsend
      dsimp only at hsend
      split at hsend
      · cases hsend
        exact .one rfl fun _ => rfl
      · cases hsend
        exact .nothing rfl
    · next hsend =>
      cases h
      exact .nothing (congrArg pendingFrames (streamSend_error hsend))
  | recv sid bufLen =>
    have hsame : (t.streamRecv sid bufLen).2.pendingFrames = t.pendingFrames := by
      unfold streamRecv
      split <;> rfl
    simp only [step] at h
    split at h <;> next heq =>
      cases h
      rw [heq] at hsame
      exact .nothing hsame
  | flowControlUpdates => cases hlimit
  | streamLimitUpdates =>
    cases h
    unfold generateStreamLimitUpdates
    dsimp only
    have hmore : ∀ bidirectional n (u : Transport),
        Queues u (u.pushBack (.maxStreams bidirectional n)) fun _ => [] :=
      fun _ _ _ => .one rfl fun _ => rfl
    have hstart : Queues t { t with streams := t.streams.takeMaxStreamsUpdates.2 } fun _ => [] :=
      .nothing rfl
    split
    · split
      · exact hstart
      · exact hstart.trans (hmore _ _ _)
    · split
      · exact hstart.trans (hmore _ _ _)
      · exact (hstart.trans (hmore _ _ _)).trans (hmore _ _ _)

end Transport

/-! ## Moves of the levels -/

theorem FlowControl.updateSendMax_quiet {checked : Prop} (fc : FlowControl) (n : Nat) :
    fc.Quiet checked (fc.updateSendMax n) := by
  unfold FlowControl.updateSendMax
  split
  · exact .of_eq rfl rfl rfl
  · exact .refl fc

theorem StreamFlowControl.onDataReceived_quiet {checked : Prop} (fc : StreamFlowControl)
    (offset len : Nat) (hchecked : checked →
      (StreamFlowControl.onDataReceived fc offset len).2.checkRecvLimit = true) :
    fc.Quiet checked (StreamFlowControl.onDataReceived fc offset len).2 := by
  have hkept := fun h : checked => of_decide_eq_true (hchecked h)
  unfold StreamFlowControl.onDataReceived at hkept ⊢
  split
  · next h =>
    rw [if_pos h] at hkept
    exact ⟨rfl, Nat.le_of_lt h, rfl, fun h => .inr (hkept h)⟩
  · exact .refl fc

namespace Credit

variable {checked : Prop} {c c' : Credit} {e : StreamLifeEvent} {r : TransportResponse}

/-- Every level keeps its limit. -/
def QuietStep (checked : Prop) (c c' : Credit) : Prop :=
  ∀ lvl, Option.Rel (FlowControl.Quiet checked) (c.level lvl) (c'.level lvl)

theorem level_rel_of_eq {lvl : Level} (h : c'.level lvl = c.level lvl) :
    Option.Rel (FlowControl.Quiet checked) (c.level lvl) (c'.level lvl) := by
  rw [h]
  cases c.level lvl with
  | none => exact .none
  | some fc => exact .some (.refl fc)

theorem QuietStep.refl (c : Credit) : c.QuietStep checked c := fun _ => level_rel_of_eq rfl

theorem account_rel {a a' : Account} (hreceives : a'.receives = a.receives)
    (hquiet : a.flowControl.Quiet checked a'.flowControl) :
    Option.Rel (FlowControl.Quiet checked) (if a.receives then some a.flowControl else none)
      (if a'.receives then some a'.flowControl else none) := by
  rw [hreceives]
  cases a.receives with
  | false => exact .none
  | true => exact .some hquiet

theorem QuietStep.setAccount {sid : Nat} {a a' : Account} {connection : ConnectionFlowControl}
    (ha : c.account sid = some a) (hreceives : a'.receives = a.receives)
    (hstream : a.flowControl.Quiet checked a'.flowControl) (hconn : c.connection.Quiet checked connection) :
    c.QuietStep checked { c.setAccount sid a' with connection := connection } := by
  intro lvl
  cases lvl with
  | connection => exact .some hconn
  | stream j =>
    dsimp only [level]
    rw [setAccount_account]
    split
    · next hj =>
      subst hj
      rw [ha, Option.bind_some, Option.bind_some]
      exact account_rel hreceives hstream
    · have hsame : c.level (.stream j) = c.level (.stream j) := rfl
      exact level_rel_of_eq hsame

theorem Step.quiet (h : c.Step e r c') (he : e.isLimitEvent = false) :
    c.QuietStep (r.overLimit = false) c' := by
  cases h with
  | idle => exact .refl c
  | send ha => exact .setAccount ha rfl (.of_eq rfl rfl rfl) (.of_eq rfl rfl rfl)
  | maxData =>
    intro lvl
    cases lvl with
    | connection => exact .some (FlowControl.updateSendMax_quiet _ _)
    | stream sid => exact level_rel_of_eq rfl
  | maxStreamData ha =>
    exact .setAccount ha rfl (FlowControl.updateSendMax_quiet _ _) (.refl _)
  | peerLimits =>
    intro lvl
    cases lvl with
    | connection => exact .some (.of_eq rfl rfl rfl)
    | stream sid =>
      dsimp only [level, applyLimits]
      cases c.account sid with
      | none => exact .none
      | some a =>
        exact account_rel rfl (.of_eq rfl rfl rfl)
  | receive ha hchecked =>
    exact .setAccount ha rfl
      (StreamFlowControl.onDataReceived_quiet _ _ _ fun h => (hchecked h).1)
      ⟨rfl, Nat.le_add_right _ _, rfl, fun h => .inr (of_decide_eq_true (hchecked h).2)⟩
  | extend => cases he
  | dataBlocked => cases he
  | streamDataBlocked => cases he

end Credit

/-! ## Steps -/

namespace StreamLife

def generated (s s' : StreamLife) : StreamLifeEvent → List Frame
  | .frame _ | .call _ =>
    (s'.transport.pendingFrames.drop s.transport.pendingFrames.length).map Prod.snd
  | _ => []

variable {s s' : StreamLife} {e : StreamLifeEvent} {r : TransportResponse}

theorem step_frame {frame : Frame} (h : s.step (.frame frame) = some (r, s')) :
    (s.transport.processFrame frame).2 = s'.transport := by
  grind [step]

theorem step_call {e : TransportEvent} (h : s.step (.call e) = some (r, s')) :
    e.isCall = true ∧ s.transport.step e = some (r, s'.transport) := by
  grind [step]

theorem limitsFor_generated_of_queues {limits : Level → List Nat}
    (h : Transport.Queues s.transport s'.transport limits)
    (he : (∃ frame, e = .frame frame) ∨ ∃ call, e = .call call) (lvl : Level) :
    limitsFor lvl (s.generated s' e) = limits lvl := by
  obtain ⟨frames, hqueue, hlimits⟩ := h
  have hgenerated : s.generated s' e = frames.map Prod.snd := by
    grind [generated]
  rw [hgenerated, hlimits]

theorem limitsFor_generated (htabled : Tabled s.transport.streams) (h : s.step e = some (r, s'))
    (lvl : Level) : limitsFor lvl (s.generated s' e) = s.transport.credit.announced e lvl := by
  cases e with
  | frame frame =>
    have hstep := step_frame h
    have hqueues : Transport.Queues s.transport s'.transport
        (s.transport.credit.announced (.frame frame)) := by
      rw [← hstep]
      cases hlimit : StreamLifeEvent.isLimitEvent (.frame frame) with
      | false =>
        exact (Transport.processFrame_queues_nothing htabled hlimit).congr fun lvl =>
          (Credit.announced_of_not_isLimitEvent hlimit _ lvl).symm
      | true =>
        unfold StreamLifeEvent.isLimitEvent at hlimit
        grind [Transport.processDataBlocked_queues, Transport.processStreamDataBlocked_queues]
    exact limitsFor_generated_of_queues hqueues (.inl ⟨_, rfl⟩) lvl
  | call e =>
    have hstep := step_call h
    have hqueues : Transport.Queues s.transport s'.transport
        (s.transport.credit.announced (.call e)) := by
      cases hlimit : StreamLifeEvent.isLimitEvent (.call e) with
      | false =>
        exact (Transport.step_queues_nothing hstep.1 hlimit hstep.2).congr fun lvl =>
          (Credit.announced_of_not_isLimitEvent hlimit _ lvl).symm
      | true =>
        grind [StreamLifeEvent.isLimitEvent, Transport.step,
          Transport.generateFlowControlUpdates_queues]
    exact limitsFor_generated_of_queues hqueues (.inr ⟨_, rfl⟩) lvl
  | gcClosedStreams | transmit | packetAcked | packetLost =>
    exact (Credit.announced_of_not_isLimitEvent rfl _ lvl).symm

end StreamLife

def Credit.NewLevels (window : Nat) (c : Credit) : Prop :=
  ∀ sid, (c.newAccount sid).receives = true → (c.newAccount sid).flowControl.recvMax = window ∧
    (c.newAccount sid).flowControl.received = 0 ∧
    (c.newAccount sid).flowControl.initialWindow = window

def initialLimit (initialMaxData initialMaxStreamData : Nat) : Level → Nat
  | .connection => initialMaxData
  | .stream _ => initialMaxStreamData

namespace Credit

variable {checked : Prop} {c c₁ c' : Credit} {e : StreamLifeEvent} {r : TransportResponse}

/-- A stream is opened. -/
def Freshly (c c' : Credit) : Level → Prop
  | .connection => False
  | .stream sid => ¬ c.used sid ∧ c'.used sid

theorem Step.used (h : c.Step e r c') : c'.used = c.used := by cases h <;> rfl

variable {window : Nat}

theorem NewLevels.opens (h : c.NewLevels window) (hopens : c.Opens c') :
    c'.NewLevels window := by
  unfold NewLevels
  rw [hopens.newAccount]
  exact h

theorem NewLevels.step (h : c.NewLevels window) (hstep : c.Step e r c') :
    c'.NewLevels window := by
  cases hstep <;> exact h

theorem Opens.levelStep (initialMaxData : Nat)
    (hused : ∀ sid a, c.account sid = some a → c.used sid) (hnew : c.NewLevels window)
    (hopens : c.Opens c₁) (hquiet : c₁.QuietStep checked c') (husedEq : c'.used = c₁.used)
    (lvl : Level) :
    LevelStep checked (initialLimit initialMaxData window lvl) (c.Freshly c' lvl) none []
      (c.level lvl) (c'.level lvl) := by
  have hrel := hquiet lvl
  cases lvl with
  | connection =>
    dsimp only [level] at hrel ⊢
    rw [hopens.connection] at hrel
    cases hrel with
    | some hconn => exact .moves (.quiet hconn)
  | stream sid =>
    rcases hopens.account sid with hsame | hnone | ⟨hunused, hnow, hacc⟩
    · have hlevel : c₁.level (.stream sid) = c.level (.stream sid) := by
        rw [level, level, hsame]
      rw [hlevel] at hrel
      generalize c.level (.stream sid) = before at hrel ⊢
      generalize c'.level (.stream sid) = after at hrel ⊢
      cases hrel with
      | none => exact .absent rfl
      | some h => exact .moves (.quiet h)
    · have hlevel : c₁.level (.stream sid) = none := by rw [level, hnone, Option.bind_none]
      rw [hlevel] at hrel
      generalize c'.level (.stream sid) = after at hrel ⊢
      cases hrel
      cases c.level (.stream sid) with
      | none => exact .absent rfl
      | some fc => exact .collected rfl rfl
    · have hbefore : c.level (.stream sid) = none := by
        cases hold : c.account sid with
        | none => rw [level, hold, Option.bind_none]
        | some a => exact absurd (hused sid a hold) hunused
      have hlevel : c₁.level (.stream sid) = if (c.newAccount sid).receives then
          some (c.newAccount sid).flowControl else none := by
        rw [level, hacc, Option.bind_some]
      have hfresh : c.Freshly c' (.stream sid) := ⟨hunused, husedEq ▸ hnow⟩
      rw [hbefore]
      rw [hlevel] at hrel
      split at hrel
      · next hreceives =>
        obtain ⟨hmax, hreceived, hwindow⟩ := hnew sid hreceives
        generalize c'.level (.stream sid) = after at hrel ⊢
        cases hrel with
        | some h =>
          refine .opened hfresh rfl (h.recvMax.trans hmax) (h.initialWindow.trans hwindow)
            fun hchecked => ?_
          grind [cases FlowControl.Quiet]
      · generalize c'.level (.stream sid) = after at hrel
        cases hrel
        exact .absent rfl

variable {initial : Nat} {fresh : Prop} {lvl : Level}

theorem levelStep_same (h : c'.level lvl = c.level lvl) :
    LevelStep checked initial fresh none [] (c.level lvl) (c'.level lvl) := by
  rw [h]
  cases c.level lvl with
  | none => exact .absent rfl
  | some fc => exact .moves (.quiet (.refl fc))

theorem levelStep_blocked {n : Nat}
    (h : c'.level lvl = (c.level lvl).map fun fc => (fc.updateFromBlocked n).2) :
    LevelStep checked initial fresh (some n)
      ((c.level lvl).map fun fc => (fc.updateFromBlocked n).2.recvMax).toList (c.level lvl)
      (c'.level lvl) := by
  rw [h]
  cases c.level lvl with
  | none => exact .absent rfl
  | some fc => exact .moves (.blocked n)

theorem levelStep_extend (h : c'.level lvl = (c.level lvl).map FlowControl.extend) :
    LevelStep checked initial fresh none ((c.level lvl).bind FlowControl.shouldSendMax).toList (c.level lvl)
      (c'.level lvl) := by
  rw [h]
  cases c.level lvl with
  | none => exact .absent rfl
  | some fc =>
    rw [Option.map_some, Option.bind_some, FlowControl.extend]
    split
    · next hno =>
      rw [hno]
      exact .moves (.quiet (.refl fc))
    · next newMax hmax =>
      rw [hmax]
      exact .moves (.update hmax)

end Credit

namespace StreamLife

variable {s s' : StreamLife} {e : StreamLifeEvent} {r : TransportResponse}

variable {initial : Nat} {fresh : Prop}

theorem step_level_dataBlocked {checked : Prop} {n : Nat}
    (h : s.step (.frame (.dataBlocked n)) = some (r, s')) (lvl : Level) :
    LevelStep checked initial fresh (StreamLifeEvent.hint (.frame (.dataBlocked n)) lvl)
      (s.transport.credit.announced (.frame (.dataBlocked n)) lvl) (s.transport.credit.level lvl)
      (s'.transport.credit.level lvl) := by
  have hcredit : s'.transport.credit = { s.transport.credit with
      connection := (s.transport.flowControl.updateFromBlocked n).2 } := by
    rw [← step_frame h]
    simp only [Transport.processFrame]
    split <;> rfl
  rw [Credit.announced_dataBlocked, hcredit]
  cases lvl with
  | connection =>
    have hmoves : s.transport.flowControl.Moves checked (some n)
        [(s.transport.flowControl.updateFromBlocked n).2.recvMax]
        (s.transport.flowControl.updateFromBlocked n).2 := .blocked n
    exact .moves hmoves
  | stream sid => exact Credit.levelStep_same rfl

theorem step_level_streamDataBlocked {checked : Prop} {sid n : Nat}
    (h : s.step (.frame (.streamDataBlocked sid n)) = some (r, s')) (lvl : Level) :
    LevelStep checked initial fresh (StreamLifeEvent.hint (.frame (.streamDataBlocked sid n)) lvl)
      (s.transport.credit.announced (.frame (.streamDataBlocked sid n)) lvl)
      (s.transport.credit.level lvl) (s'.transport.credit.level lvl) := by
  have hlevel := s.transport.processStreamDataBlocked_level sid n lvl
  rw [step_frame h, ← Transport.credit_level, ← Transport.credit_level] at hlevel
  rw [Credit.announced_streamDataBlocked]
  by_cases hlvl : lvl = .stream sid
  · subst hlvl
    rw [if_pos rfl] at hlevel ⊢
    simp only [StreamLifeEvent.hint]
    exact Credit.levelStep_blocked hlevel
  · have hhint : StreamLifeEvent.hint (.frame (.streamDataBlocked sid n)) lvl = none := by
      cases lvl with
      | connection => rfl
      | stream j => exact if_neg fun heq => hlvl (congrArg Level.stream heq)
    rw [if_neg hlvl] at hlevel ⊢
    rw [hhint]
    exact Credit.levelStep_same hlevel

theorem step_level_flowControlUpdates {checked : Prop}
    (h : s.step (.call .flowControlUpdates) = some (r, s')) (lvl : Level) :
    LevelStep checked initial fresh none (s.transport.credit.announced (.call .flowControlUpdates) lvl)
      (s.transport.credit.level lvl) (s'.transport.credit.level lvl) := by
  have hstep := (step_call h).2
  simp only [Transport.step, Option.some.injEq, Prod.mk.injEq] at hstep
  rw [Credit.announced_flowControlUpdates]
  apply Credit.levelStep_extend
  rw [← hstep.2, Transport.generateFlowControlUpdates_credit]
  cases lvl with
  | connection => rfl
  | stream sid =>
    dsimp only [Credit.level, Credit.extend]
    cases s.transport.credit.account sid with
    | none => rfl
    | some a =>
      rw [Option.map_some, Option.bind_some, Option.bind_some, Account.extend]
      cases hreceives : a.receives <;> simp [Account.change, hreceives]

theorem step_level (initialMaxData : Nat) {window : Nat} (htabled : Tabled s.transport.streams)
    (hnew : s.transport.credit.NewLevels window) (h : s.step e = some (r, s')) (lvl : Level) :
    LevelStep (r.overLimit = false) (initialLimit initialMaxData window lvl)
      (s.transport.credit.Freshly s'.transport.credit lvl) (e.hint lvl)
      (limitsFor lvl (s.generated s' e)) (s.transport.level lvl) (s'.transport.level lvl) := by
  rw [limitsFor_generated htabled h, ← Transport.credit_level, ← Transport.credit_level]
  cases hlimit : e.isLimitEvent with
  | false =>
    obtain ⟨c, hopens, hstep⟩ := step_credit htabled h
    rw [Credit.announced_of_not_isLimitEvent hlimit, e.hint_of_not_isLimitEvent hlimit]
    exact hopens.levelStep initialMaxData (fun _ _ => used_of_account htabled) hnew (hstep.quiet hlimit)
      hstep.used lvl
  | true =>
    unfold StreamLifeEvent.isLimitEvent at hlimit
    split at hlimit
    · exact step_level_dataBlocked h lvl
    · exact step_level_streamDataBlocked h lvl
    · exact step_level_flowControlUpdates h lvl
    · cases hlimit

end StreamLife

end Starfish.Quic
