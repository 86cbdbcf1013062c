import Starfish.Quic.Connection.StreamRecvSteps

/-!
# What is queued on a stream

The STREAM frames queued by the writes of a stream, in order, are compared with
the data the writes accepted and with the final sizes announced to the peer.
-/

namespace Starfish.Quic

def streamFrames (frames : List Frame) : List StreamFrame :=
  frames.filterMap fun frame => match frame with
    | .stream f => some f
    | _ => none

def announced (frames : List Frame) : List Nat :=
  frames.filterMap fun frame => match frame with
    | .stream f => if f.fin then some (f.offset + f.data.length) else none
    | .resetStream _ _ finalSize => some finalSize
    | _ => none

/-- The frames follow one another without gap or overlap from `offset` on. -/
def ContiguousFrom : Nat → List StreamFrame → Prop
  | _, [] => True
  | offset, f :: rest => f.offset = offset ∧ ContiguousFrom (offset + f.data.length) rest

def acceptedData (sid : Nat) (tr : TransportTrace) : Bytes :=
  tr.flatMap fun x => match x with
    | (.send _ _ id data _, .sent len) => if id = sid then data.take len else []
    | _ => []

structure OneString (sid : Nat) (tr : TransportTrace) (frames : List Frame) : Prop where
  contiguous : ContiguousFrom 0 (streamFrames frames)
  data : (streamFrames frames).flatMap StreamFrame.data = acceptedData sid tr
  one_end : ∀ n ∈ announced frames, ∀ k ∈ announced frames, n = k
  nothing_after : ∀ f ∈ streamFrames frames, f.fin = true → ∀ g ∈ streamFrames frames,
    g.offset + g.data.length ≤ f.offset + f.data.length

def NoWriteAfterFin (sid : Nat) (t : Transport) : TransportEvent → Prop
  | .send state kind id data _ => id = sid → Transport.sendable state kind = true →
      ∀ st, t.streams.get sid = some st → st.send = some .dataSent → t.writeLen st data = 0
  | _ => True

/-! ## Lists of frames -/

theorem contiguousFrom_append (offset : Nat) (fs : List StreamFrame) (f : StreamFrame) :
    ContiguousFrom offset (fs ++ [f]) ↔ ContiguousFrom offset fs ∧
      f.offset = offset + (fs.flatMap StreamFrame.data).length := by
  induction fs generalizing offset with
  | nil => simp [ContiguousFrom]
  | cons g rest ih =>
    simp only [List.cons_append, ContiguousFrom, ih, List.flatMap_cons, List.length_append,
      and_assoc, Nat.add_assoc]

variable {f : StreamFrame} {data : Bytes} {state : ConnectionState}
  {kind : Option ApplicationPacketKind}

theorem ContiguousFrom.stop_le {offset : Nat} {fs : List StreamFrame}
    (h : ContiguousFrom offset fs) (hf : f ∈ fs) :
    f.offset + f.data.length ≤ offset + (fs.flatMap StreamFrame.data).length := by
  induction fs generalizing offset with
  | nil => cases hf
  | cons g rest ih =>
    obtain ⟨hoff, hrest⟩ := h
    grind

theorem streamFrames_append (xs ys : List Frame) :
    streamFrames (xs ++ ys) = streamFrames xs ++ streamFrames ys :=
  List.filterMap_append

theorem announced_append (xs ys : List Frame) :
    announced (xs ++ ys) = announced xs ++ announced ys :=
  List.filterMap_append

theorem mem_announced_of_fin {frames : List Frame}
    (hf : f ∈ streamFrames frames) (hfin : f.fin = true) :
    f.offset + f.data.length ∈ announced frames := by
  grind [streamFrames, announced]

/-! ## The send part of one stream -/

/-- The send part of a stream; one that does not exist has sent nothing. -/
def sendViewOf (t : Transport) (sid : Nat) : SendView :=
  ((t.streams.get sid).map StreamState.sendView).getD ⟨none, 0⟩

variable {st : StreamState}

theorem sendViewOf_some {t : Transport} {sid : Nat} (h : t.streams.get sid = some st) :
    sendViewOf t sid = st.sendView := by
  simp [sendViewOf, h]

def framesOf (t : Transport) (sid : Nat) : List Frame := Transport.queuedFor sid t.pendingFrames

def EndAnnounced (send : Option SendState) : Prop :=
  send = some .dataSent ∨ send = some .resetSent ∨ send = some .dataRecvd

/-- What a step can do to the send part of stream `sid`. -/
inductive SendChange (t : Transport) (sid : Nat) :
    TransportEvent → TransportResponse → Transport → Prop
  | same {e : TransportEvent} {r : TransportResponse} {u : Transport}
      (hdata : acceptedData sid [(e, r)] = [])
      (hoffset : (sendViewOf u sid).sendOffset = (sendViewOf t sid).sendOffset)
      (hended : EndAnnounced (sendViewOf t sid).send → EndAnnounced (sendViewOf u sid).send)
      (hfin : (sendViewOf u sid).send = some .dataSent →
        (sendViewOf t sid).send = some .dataSent)
      (hframes : framesOf u sid = framesOf t sid) : SendChange t sid e r u
  | stopped {e : TransportEvent} {r : TransportResponse} {u : Transport} (code : Nat)
      (hdata : acceptedData sid [(e, r)] = [])
      (hview : sendViewOf u sid = ⟨some .resetSent, (sendViewOf t sid).sendOffset⟩)
      (hframes : framesOf u sid = framesOf t sid ++
        [.resetStream sid code (sendViewOf t sid).sendOffset]) : SendChange t sid e r u
  | write {state : ConnectionState} {kind : Option ApplicationPacketKind} {data : Bytes}
      {fin actualFin : Bool} {st : StreamState} {len : Nat} {u : Transport}
      (hsendable : Transport.sendable state kind = true) (hst : t.streams.get sid = some st)
      (hsend : st.send = some .ready ∨ st.send = some .send ∨ st.send = some .dataSent)
      (hlen : len = t.writeLen st data) (hany : 0 < len ∨ actualFin = true)
      (hview : sendViewOf u sid = (Transport.written st len actualFin).sendView)
      (hframes : framesOf u sid = framesOf t sid ++
        [.stream ⟨sid, st.sendOffset, actualFin, data.take len⟩]) :
      SendChange t sid (.send state kind sid data fin) (.sent len) u

namespace Transport

variable {t u : Transport} {e : TransportEvent} {r : TransportResponse} {sid : Nat}

theorem SendChange.of_view (hdata : acceptedData sid [(e, r)] = [])
    (hview : (u.streams.get sid).map StreamState.sendView =
      (t.streams.get sid).map StreamState.sendView)
    (hframes : framesOf u sid = framesOf t sid) : SendChange t sid e r u := by
  have hv : sendViewOf u sid = sendViewOf t sid := by rw [sendViewOf, hview, sendViewOf]
  exact .same hdata (by rw [hv]) (by rw [hv]; exact id) (by rw [hv]; exact id) hframes

theorem SendChange.of_creates {m : StreamManager} (hdata : acceptedData sid [(e, r)] = [])
    (hcreates : t.streams.Creates m)
    (hview : (u.streams.get sid).map StreamState.sendView =
      (m.get sid).map StreamState.sendView)
    (hframes : framesOf u sid = framesOf t sid) : SendChange t sid e r u := by
  rcases hcreates sid with hsame | ⟨hnone, st, hst, direction, isLocal, sendMax, recvMax, rfl⟩
  · exact SendChange.of_view hdata (by rw [hview, hsame]) hframes
  · have hu : sendViewOf u sid =
        (StreamState.new sid direction isLocal sendMax recvMax).sendView := by
      rw [sendViewOf, hview, hst]
      rfl
    have ht : sendViewOf t sid = ⟨none, 0⟩ := by
      rw [sendViewOf, hnone]
      rfl
    refine .same hdata ?_ ?_ ?_ hframes
    · rw [hu, ht]
      rfl
    · rw [ht]
      rintro (h | h | h) <;> cases h
    · rw [hu]
      intro h
      cases direction <;> cases isLocal <;> cases h

theorem framesOf_append_other {frames : List (PacketNumberSpace × Frame)} {frame : Frame}
    (h : queuedFor sid [(.applicationData, frame)] = []) :
    queuedFor sid (frames ++ [(.applicationData, frame)]) = queuedFor sid frames := by
  grind [queuedFor]

theorem StepCases.sendChange (h : StepCases t e r u) (sid : Nat) : SendChange t sid e r u := by
  cases h with
  | quiet hquiet hsame =>
    refine SendChange.of_view ?_ (hsame.send sid) (hsame.queued sid)
    cases e with
    | send state kind id data fin =>
      cases r with
      | sent len =>
        obtain rfl : len = 0 := hquiet
        simp [acceptedData]
      | _ => rfl
    | _ => rfl
  | opened he hnum hcreates =>
    refine SendChange.of_creates ?_ hcreates rfl rfl
    rcases he with rfl | rfl <;> rfl
  | @stream f t' st st' conn hacc hst hrecv =>
    refine SendChange.of_creates rfl hacc.creates ?_ ?_
    · simp only [setStream, StreamManager.get_set]
      split
      · next hsid =>
        subst hsid
        rw [hst, Option.map_some, Option.map_some, (receiveStreamFrame_spec hrecv).send]
      · rfl
    · exact congrArg (queuedFor sid) hacc.pendingFrames
  | @reset id code finalSize t' st st' hacc hst hrecv =>
    refine SendChange.of_creates rfl hacc.creates ?_ ?_
    · simp only [setStream, StreamManager.get_set]
      split
      · next hsid =>
        subst hsid
        rw [hst, Option.map_some, Option.map_some, (receiveResetStream_spec hrecv).2.2.2.2]
      · rfl
    · exact congrArg (queuedFor sid) hacc.pendingFrames
  | @stopSending id code t' st hacc hst hsend =>
    by_cases hsid : id = sid
    · subst hsid
      have hoffset : st.sendOffset = (sendViewOf t id).sendOffset := by
        rcases hacc.before hst with hst | ⟨hnone, direction, isLocal, sendMax, recvMax, rfl⟩
        · rw [sendViewOf_some hst]
          rfl
        · rw [sendViewOf, hnone]
          rfl
      refine .stopped code rfl ?_ ?_
      · rw [← hoffset]
        simp [StreamState.sendView, sendViewOf_some, pushBack, setStream]
      · rw [← hoffset]
        simp [framesOf, pushBack, setStream, queuedFor, hacc.pendingFrames]
    · refine SendChange.of_creates rfl hacc.creates ?_ ?_
      · simp [pushBack, setStream, Ne.symm hsid]
      · grind [cases Accepted, queuedFor, framesOf, pushBack, setStream]
  | @acknowledged f st hst =>
    by_cases hsid : f.streamId = sid
    · subst hsid
      have hv : sendViewOf (t.setStream f.streamId (Transport.acknowledged st f)) f.streamId =
          (Transport.acknowledged st f).sendView :=
        sendViewOf_some (by simp [setStream])
      have ht := sendViewOf_some hst
      have hack : (st.acknowledgeSentData f.offset f.data.length f.fin).sendView = st.sendView := by
        unfold StreamState.acknowledgeSentData
        split <;> split <;> rfl
      have hcases : (Transport.acknowledged st f).sendView = st.sendView ∨
          (st.send = some .dataSent ∧
            (Transport.acknowledged st f).sendView = ⟨some .dataRecvd, st.sendOffset⟩) := by
        simp only [StreamState.sendView, SendView.mk.injEq] at hack
        unfold Transport.acknowledged
        dsimp only
        split
        · next hall =>
          grind [StreamState.sendView]
        · exact Or.inl (by simp only [StreamState.sendView, hack.1, hack.2])
      rcases hcases with hsame | ⟨hsent, hack'⟩
      · refine .same rfl ?_ ?_ ?_ rfl <;> rw [hv, ht, hsame]
        · exact id
        · exact id
      · refine .same rfl ?_ ?_ ?_ rfl <;> rw [hv, ht, hack']
        · rfl
        · exact fun _ => Or.inr (Or.inr rfl)
        · intro h
          cases h
    · exact SendChange.of_view rfl (by simp [setStream, Ne.symm hsid]) rfl
  | @write state kind id data fin actualFin st len hsendable hst hsend hlen hfin hany =>
    by_cases hsid : id = sid
    · subst hsid
      refine .write hsendable hst hsend hlen hany ?_ ?_
      · exact sendViewOf_some (by simp [setStream])
      · simp [framesOf, queuedFor]
    · refine SendChange.of_view ?_ ?_ ?_
      · simp [acceptedData, hsid]
      · simp [setStream, Ne.symm hsid]
      · refine framesOf_append_other ?_
        simp [queuedFor, hsid]
  | @read id bufLen st st' res hst hread =>
    refine SendChange.of_view ?_ ?_ rfl
    · cases res <;> rfl
    · simp only [setStream, StreamManager.get_set]
      split
      · next hsid =>
        subst hsid
        rw [hst, Option.map_some, Option.map_some, (receiveRead_keeps hread).2.2]
      · rfl

end Transport

/-! ## The invariant -/

/-- What has been queued for a stream, read off its state. -/
structure SendInv (sid : Nat) (tr : TransportTrace) (t : Transport) : Prop where
  contiguous : ContiguousFrom 0 (streamFrames (framesOf t sid))
  data : (streamFrames (framesOf t sid)).flatMap StreamFrame.data = acceptedData sid tr
  length : (acceptedData sid tr).length = (sendViewOf t sid).sendOffset
  announced_eq : ∀ n ∈ announced (framesOf t sid), n = (sendViewOf t sid).sendOffset
  ended : announced (framesOf t sid) ≠ [] → EndAnnounced (sendViewOf t sid).send
  fin_queued : (sendViewOf t sid).send = some .dataSent →
    ∃ f ∈ streamFrames (framesOf t sid), f.fin = true

variable {sid : Nat} {tr : TransportTrace} {t u : Transport} {e : TransportEvent}
  {r : TransportResponse}

theorem acceptedData_snoc :
    acceptedData sid (tr ++ [(e, r)]) = acceptedData sid tr ++ acceptedData sid [(e, r)] := by
  simp [acceptedData]

theorem SendInv.oneString (h : SendInv sid tr t) : OneString sid tr (framesOf t sid) := by
  refine ⟨h.contiguous, h.data, ?_, ?_⟩
  · grind [cases SendInv]
  · intro f hf hfin g hg
    rw [h.announced_eq _ (mem_announced_of_fin hf hfin), ← h.length, ← h.data]
    have hle := h.contiguous.stop_le hg
    omega

theorem SendInv.new (sid : Nat) (side : Side) (maxBidi maxUni maxStreamData maxData : Nat) :
    SendInv sid [] (Transport.new side maxBidi maxUni maxStreamData maxData) where
  contiguous := trivial
  data := rfl
  length := rfl
  announced_eq := by
    intro n hn
    cases hn
  ended := fun hne => absurd rfl hne
  fin_queued := by
    intro h
    cases h

theorem SendInv.write {len : Nat} {actualFin : Bool} (h : SendInv sid tr t)
    (hst : t.streams.get sid = some st)
    (hsend : st.send = some .ready ∨ st.send = some .send ∨ st.send = some .dataSent)
    (hlen : len ≤ data.length) (hcond : st.send = some .dataSent → len = 0)
    (hdata : acceptedData sid [(e, r)] = data.take len)
    (hview : sendViewOf u sid = (Transport.written st len actualFin).sendView)
    (hframes : framesOf u sid = framesOf t sid ++ [.stream ⟨sid, st.sendOffset, actualFin, data.take len⟩])
    : SendInv sid (tr ++ [(e, r)]) u := by
  have ht := sendViewOf_some hst
  have htake : (data.take len).length = len := by
    rw [List.length_take]
    omega
  have hlength : (acceptedData sid tr).length = st.sendOffset := by
    rw [h.length, ht]
    rfl
  have hstream : streamFrames (framesOf u sid) = streamFrames (framesOf t sid) ++
      [⟨sid, st.sendOffset, actualFin, data.take len⟩] := by
    rw [hframes, streamFrames_append]
    rfl
  have hannounced : announced (framesOf u sid) = announced (framesOf t sid) ++
      (if actualFin then [st.sendOffset + len] else []) := by
    grind [announced]
  -- before the end is announced there is nothing to contradict, afterwards nothing is taken
  have hold : ∀ n ∈ announced (framesOf t sid), n = st.sendOffset + len ∧
      st.send = some .dataSent := by
    intro n hn
    have hend := h.ended (List.ne_nil_of_mem hn)
    have hn' := h.announced_eq n hn
    rw [ht] at hend hn'
    have hsent : st.send = some .dataSent := by
      rcases hsend with hs | hs | hs
      · rcases hend with he | he | he <;> exact absurd (hs.symm.trans he) (by decide)
      · rcases hend with he | he | he <;> exact absurd (hs.symm.trans he) (by decide)
      · exact hs
    refine ⟨?_, hsent⟩
    rw [hn', hcond hsent]
    rfl
  refine ⟨?_, ?_, ?_, ?_, ?_, ?_⟩
  · rw [hstream, contiguousFrom_append]
    refine ⟨h.contiguous, ?_⟩
    rw [h.data, hlength]
    exact (Nat.zero_add _).symm
  · rw [hstream, List.flatMap_append, h.data, acceptedData_snoc, hdata]
    simp
  · rw [acceptedData_snoc, hdata, List.length_append, hlength, htake, hview]
    rfl
  · intro n hn
    rw [hannounced, List.mem_append] at hn
    rw [hview]
    rcases hn with hn | hn
    · exact (hold n hn).1
    · cases actualFin
      · cases hn
      · exact List.mem_singleton.mp hn
  · intro hne
    rw [hview]
    cases actualFin with
    | true => exact Or.inl rfl
    | false =>
      have hold' : announced (framesOf u sid) = announced (framesOf t sid) :=
        hannounced.trans (List.append_nil _)
      obtain ⟨n, hn⟩ := List.exists_mem_of_ne_nil _ hne
      grind [cases SendInv, Transport.written, StreamState.sendView]
  · intro hsent
    rw [hstream]
    cases actualFin with
    | true => exact ⟨_, List.mem_append_right _ (List.mem_singleton.mpr rfl), rfl⟩
    | false =>
      grind [cases SendInv, Transport.written, StreamState.sendView]

theorem SendInv.same (h : SendInv sid tr t) (hdata : acceptedData sid [(e, r)] = [])
    (hoffset : (sendViewOf u sid).sendOffset = (sendViewOf t sid).sendOffset)
    (hended : EndAnnounced (sendViewOf t sid).send → EndAnnounced (sendViewOf u sid).send)
    (hfin : (sendViewOf u sid).send = some .dataSent → (sendViewOf t sid).send = some .dataSent)
    (hframes : framesOf u sid = framesOf t sid) : SendInv sid (tr ++ [(e, r)]) u := by
  have hacc : acceptedData sid (tr ++ [(e, r)]) = acceptedData sid tr := by
    rw [acceptedData_snoc, hdata, List.append_nil]
  refine ⟨?_, ?_, ?_, ?_, ?_, ?_⟩
  · rw [hframes]
    exact h.contiguous
  · rw [hframes, hacc]
    exact h.data
  · rw [hacc, hoffset]
    exact h.length
  · rw [hframes, hoffset]
    exact h.announced_eq
  · rw [hframes]
    exact fun hne => hended (h.ended hne)
  · rw [hframes]
    exact fun hsent => h.fin_queued (hfin hsent)

theorem SendInv.stopped {code : Nat} (h : SendInv sid tr t)
    (hdata : acceptedData sid [(e, r)] = [])
    (hview : sendViewOf u sid = ⟨some .resetSent, (sendViewOf t sid).sendOffset⟩)
    (hframes : framesOf u sid = framesOf t sid ++
      [.resetStream sid code (sendViewOf t sid).sendOffset]) :
    SendInv sid (tr ++ [(e, r)]) u := by
  have hacc : acceptedData sid (tr ++ [(e, r)]) = acceptedData sid tr := by
    rw [acceptedData_snoc, hdata, List.append_nil]
  have hstream : streamFrames (framesOf u sid) = streamFrames (framesOf t sid) := by
    rw [hframes, streamFrames_append]
    exact List.append_nil _
  refine ⟨?_, ?_, ?_, ?_, ?_, ?_⟩
  · rw [hstream]
    exact h.contiguous
  · rw [hstream, hacc]
    exact h.data
  · rw [hacc, hview]
    exact h.length
  · intro n hn
    rw [hframes, announced_append, List.mem_append] at hn
    rw [hview]
    rcases hn with hn | hn
    · exact h.announced_eq n hn
    · exact List.mem_singleton.mp hn
  · rw [hview]
    exact fun _ => Or.inr (Or.inl rfl)
  · rw [hview]
    intro hsent
    cases hsent

/-! ## Steps and runs -/

theorem writeLen_le (t : Transport) (st : StreamState) (data : Bytes) :
    t.writeLen st data ≤ data.length :=
  Nat.min_le_left _ _

theorem SendInv.step (h : SendInv sid tr t) (hchange : SendChange t sid e r u)
    (hcond : NoWriteAfterFin sid t e) : SendInv sid (tr ++ [(e, r)]) u := by
  cases hchange with
  | same hdata hoffset hended hfin hframes => exact h.same hdata hoffset hended hfin hframes
  | stopped code hdata hview hframes => exact h.stopped hdata hview hframes
  | @write state kind data fin actualFin st len u hsendable hst hsend hlen hany hview hframes =>
    refine h.write hst hsend (hlen ▸ writeLen_le t st data) ?_ ?_ hview hframes
    · intro hsent
      rw [hlen]
      exact hcond rfl hsendable st hst hsent
    · simp [acceptedData]

theorem streamSend_dataSent
    (data : Bytes) (fin : Bool) (hsendable : Transport.sendable state kind = true)
    (hst : t.streams.get sid = some st) (hsent : st.send = some .dataSent) :
    (t.streamSend state kind sid data fin).1 = .ok (t.writeLen st data) := by
  unfold Transport.streamSend
  grind

theorem step_send_dataSent {fin : Bool} (hsendable : Transport.sendable state kind = true)
    (hst : t.streams.get sid = some st) (hsent : st.send = some .dataSent)
    (hstep : t.step (.send state kind sid data fin) = some (r, u)) :
    r = .sent (t.writeLen st data) := by
  grind [streamSend_dataSent, Transport.step]

theorem SendInv.not_oneString (h : SendInv sid tr t) (hchange : SendChange t sid e r u)
    (hstep : t.step e = some (r, u)) (hcond : ¬ NoWriteAfterFin sid t e) :
    ¬ OneString sid (tr ++ [(e, r)]) (framesOf u sid) := by
  cases e with
  | send state kind id data fin =>
    simp only [NoWriteAfterFin, not_forall] at hcond
    obtain ⟨rfl, hsendable, st, hst, hsent, hpos⟩ := hcond
    obtain rfl := step_send_dataSent hsendable hst hsent hstep
    intro hone
    have hsome : acceptedData id [(.send state kind id data fin, .sent (t.writeLen st data))] ≠
        [] := by
      have hle := writeLen_le t st data
      rw [← List.length_pos_iff]
      simp only [acceptedData, List.flatMap_cons, List.flatMap_nil, List.append_nil, if_true,
        List.length_take]
      omega
    have hframes : ∃ actualFin, framesOf u id = framesOf t id ++
        [.stream ⟨id, st.sendOffset, actualFin, data.take (t.writeLen st data)⟩] := by
      cases hchange with
      | same hdata _ _ _ _ | stopped _ hdata _ _ => exact absurd hdata hsome
      | @write _ _ _ _ actualFin st' _ _ _ hst' _ _ _ _ hframes =>
        grind
    obtain ⟨actualFin, hframes⟩ := hframes
    have hview := sendViewOf_some hst
    obtain ⟨f, hf, hfin⟩ := h.fin_queued (by rw [hview]; exact hsent)
    have hend := h.announced_eq _ (mem_announced_of_fin hf hfin)
    have hstream : streamFrames (framesOf u id) = streamFrames (framesOf t id) ++
        [⟨id, st.sendOffset, actualFin, data.take (t.writeLen st data)⟩] := by
      rw [hframes, streamFrames_append]
      rfl
    have hafter := hone.nothing_after f (by rw [hstream]; exact List.mem_append_left _ hf) hfin
      ⟨id, st.sendOffset, actualFin, data.take (t.writeLen st data)⟩
      (by rw [hstream]; exact List.mem_append_right _ (List.mem_singleton.mpr rfl))
    grind [writeLen_le, StreamState.sendView]
  | _ => exact absurd trivial hcond

theorem sendInv_run {side : Side} {maxBidi maxUni maxStreamData maxData : Nat}
    (hrun : Run Transport.step (NoWriteAfterFin sid)
      (Transport.new side maxBidi maxUni maxStreamData maxData) tr t) :
    t.streams.Numbered ∧ SendInv sid tr t := by
  refine hrun.invariant (I := fun tr t => t.streams.Numbered ∧ SendInv sid tr t) ?_ ?_
  · exact ⟨StreamManager.new_numbered side maxBidi maxUni maxStreamData,
      SendInv.new sid side maxBidi maxUni maxStreamData maxData⟩
  · rintro tr t e r u ⟨hnum, hinv⟩ hcond hstep
    have hcases := Transport.step_cases hnum hstep
    exact ⟨hcases.numbered hnum, hinv.step (hcases.sendChange sid) hcond⟩

/-- As long as no write takes a byte after FIN, the stream is sent as one string
with one end. The first write that does so breaks it. -/
theorem one_string_iff {side : Side} {maxBidi maxUni maxStreamData maxData : Nat} (sid : Nat)
    {tr : TransportTrace} {t : Transport}
    (hrun : Run Transport.step (NoWriteAfterFin sid)
      (Transport.new side maxBidi maxUni maxStreamData maxData) tr t) :
    OneString sid tr (framesOf t sid) ∧ ∀ e r u, t.step e = some (r, u) →
      (OneString sid (tr ++ [(e, r)]) (framesOf u sid) ↔ NoWriteAfterFin sid t e) := by
  obtain ⟨hnum, hinv⟩ := sendInv_run hrun
  refine ⟨hinv.oneString, ?_⟩
  intro e r u hstep
  have hchange := (Transport.step_cases hnum hstep).sendChange sid
  constructor
  · intro hone
    by_contra hcond
    exact hinv.not_oneString hchange hstep hcond hone
  · exact fun hcond => (hinv.step hchange hcond).oneString

/-- Two writes, the second with FIN, on the first stream of a client. -/
theorem one_string_two_writes : ∃ t u v,
    (Transport.new .client 1 1 10 10).step .openBidi = some (.opened 0, t) ∧
    t.step (.send .connected (some .oneRtt) 0 [10, 20] false) = some (.sent 2, u) ∧
    u.step (.send .connected (some .oneRtt) 0 [30] true) = some (.sent 1, v) ∧
    OneString 0 [(.openBidi, .opened 0),
      (.send .connected (some .oneRtt) 0 [10, 20] false, .sent 2),
      (.send .connected (some .oneRtt) 0 [30] true, .sent 1)] (framesOf v 0) := by
  refine ⟨_, _, _, rfl, rfl, rfl, (one_string_iff 0
    ((((Run.nil (s := Transport.new .client 1 1 10 10)).push TransportEvent.openBidi rfl trivial).push
      (TransportEvent.send .connected (some .oneRtt) 0 [10, 20] false) rfl ?_).push
      (TransportEvent.send .connected (some .oneRtt) 0 [30] true) rfl ?_)).1⟩
  · intro _ _ st hst hsent
    obtain rfl := Option.some.inj hst
    cases hsent
  · intro _ _ st hst hsent
    obtain rfl := Option.some.inj hst
    cases hsent

/-- A byte is written with FIN, and another one after it: it is queued at the
final size that has been announced. -/
theorem write_after_fin_is_queued : ∃ tr t,
    Run Transport.step (fun _ _ => True) (Transport.new .client 1 1 10 10) tr t ∧
      ¬ OneString 0 tr (framesOf t 0) := by
  refine ⟨_, _, ((Run.nil.push TransportEvent.openBidi rfl trivial).push
    (TransportEvent.send .connected (some .oneRtt) 0 [10] true) rfl trivial).push
    (TransportEvent.send .connected (some .oneRtt) 0 [20] false) rfl trivial, ?_⟩
  intro hone
  have hafter := hone.nothing_after ⟨0, 0, true, [10]⟩ (by decide) rfl ⟨0, 1, false, [20]⟩
    (by decide)
  revert hafter
  decide

end Starfish.Quic
