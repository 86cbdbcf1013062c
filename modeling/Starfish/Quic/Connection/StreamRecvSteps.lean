import Starfish.Quic.Connection.StreamSteps

/-!
# What a step can do to the receive part of a stream

The specifications of the frames that carry data, and the view a single stream
has of a step of the whole machine.
-/

namespace Starfish.Quic

/-! ## Accepted frames on one stream -/

theorem bufferStreamRecvData_nil (recvBuf : OrdMap Bytes) (offset : Nat) :
    bufferStreamRecvData recvBuf offset [] = recvBuf := rfl

variable {st : StreamState} {sid : Nat}

variable {finalSize room recvOffset k : Nat}

theorem validateStreamFinalSize_ok (h : validateStreamFinalSize sid st finalSize = .ok ()) :
    (∀ n, st.finalSize = some n → n = finalSize) ∧ st.flowControl.received ≤ finalSize := by
  unfold validateStreamFinalSize at h
  split at h
  · cases h
  · next hsame =>
    split at h
    · cases h
    · next hle =>
      refine ⟨?_, Nat.le_of_not_lt hle⟩
      intro n hn
      simpa [hn] using hsame

theorem markReceived_cases (st : StreamState) :
    markReceived st = st ∨ markReceived st = { st with recv := some .dataRecvd } := by
  grind [markReceived]

theorem fixFinalSize_recv (st : StreamState) (stop : Nat) :
    (fixFinalSize st stop).recv = st.recv ∨ (fixFinalSize st stop).recv = some .sizeKnown := by
  grind [fixFinalSize]

structure StreamReceived (st : StreamState) (conn : ConnectionFlowControl) (f : StreamFrame)
    (st' : StreamState) (conn' : ConnectionFlowControl) : Prop where
  recv_isSome : st.recv.isSome
  recv_isSome' : st'.recv.isSome
  recv_reset : st.recv ≠ some .resetRecvd → st'.recv ≠ some .resetRecvd
  within : ∀ n, st.finalSize = some n → f.offset + f.data.length ≤ n
  recvBuf : st'.recvBuf = bufferStreamRecvData st.recvBuf f.offset f.data
  recvOffset : st'.recvOffset = st.recvOffset
  finalSize : st'.finalSize = if f.fin then some (f.offset + f.data.length) else st.finalSize
  final : f.fin = true → (∀ n, st.finalSize = some n → n = f.offset + f.data.length) ∧
    st.flowControl.received ≤ f.offset + f.data.length
  received : st'.flowControl.received = max st.flowControl.received (f.offset + f.data.length)
  charged : conn'.received + st.flowControl.received = conn.received + st'.flowControl.received
  send : st'.sendView = st.sendView

variable {st' : StreamState}

theorem receiveStreamFrame_spec {conn conn' : ConnectionFlowControl} {f : StreamFrame}
    (h : receiveStreamFrame st conn f = (.ok (), st', conn')) :
    StreamReceived st conn f st' conn' := by
  unfold receiveStreamFrame at h
  dsimp only at h
  split at h
  · cases h
  next hsome =>
  split at h
  · cases h
  next stop hstop =>
  obtain rfl := checkedAdd_eq_some hstop
  split at h
  · cases h
  next hwithin =>
  split at h
  · cases h
  split at h
  · cases h
  -- after the limit checks: the state with the charge and the buffered data
  generalize hst1 : (if f.data.isEmpty = true then _ else _ : StreamState) = st1 at h
  have hbuf : st1.recvBuf = bufferStreamRecvData st.recvBuf f.offset f.data := by
    grind [bufferStreamRecvData_nil]
  have hrest : st1.recv = st.recv ∧ st1.recvOffset = st.recvOffset ∧
      st1.finalSize = st.finalSize ∧ st1.sendView = st.sendView ∧ st1.flowControl =
        (StreamFlowControl.onDataReceived st.flowControl f.offset f.data.length).2 := by
    rw [← hst1]
    split <;> exact ⟨rfl, rfl, rfl, rfl, rfl⟩
  obtain ⟨hrecv, hoff, hfs, hsend, hfc⟩ := hrest
  have hreceived : st1.flowControl.received =
      max st.flowControl.received (f.offset + f.data.length) := by
    rw [hfc, StreamFlowControl.onDataReceived_received]
  have hcharge := StreamFlowControl.onDataReceived_delta st.flowControl f.offset f.data.length
  rw [← hfc] at hcharge
  split at h
  · cases h
  next hvalid =>
  obtain ⟨-, hpair⟩ := Prod.mk.inj h
  obtain ⟨hst', hconn⟩ := Prod.mk.inj hpair
  have hfinal : f.fin = true → (∀ n, st.finalSize = some n → n = f.offset + f.data.length) ∧
      st.flowControl.received ≤ f.offset + f.data.length := by
    intro hfin
    rw [if_pos hfin] at hvalid
    obtain ⟨hsame, hle⟩ := validateStreamFinalSize_ok hvalid
    rw [hfs] at hsame
    exact ⟨hsame, by omega⟩
  have hwithin' : ∀ n, st.finalSize = some n → f.offset + f.data.length ≤ n := by
    intro n hn
    simpa [hn] using hwithin
  have hst'1 : st'.recvBuf = st1.recvBuf ∧ st'.recvOffset = st1.recvOffset ∧
      st'.flowControl = st1.flowControl ∧ st'.sendView = st1.sendView ∧
      st'.finalSize = (if f.fin then some (f.offset + f.data.length) else st1.finalSize) ∧
      (st'.recv = st1.recv ∨ st'.recv = some .sizeKnown ∨ st'.recv = some .dataRecvd) := by
    rw [← hst']
    generalize hst2 : (if f.fin then fixFinalSize st1 (f.offset + f.data.length) else st1) = st2
    have hst2' : st2.recvBuf = st1.recvBuf ∧ st2.recvOffset = st1.recvOffset ∧
        st2.flowControl = st1.flowControl ∧ st2.sendView = st1.sendView ∧
        st2.finalSize = (if f.fin then some (f.offset + f.data.length) else st1.finalSize) ∧
        (st2.recv = st1.recv ∨ st2.recv = some .sizeKnown) := by
      rw [← hst2]
      split
      · exact ⟨rfl, rfl, rfl, rfl, rfl, fixFinalSize_recv _ _⟩
      · exact ⟨rfl, rfl, rfl, rfl, rfl, Or.inl rfl⟩
    obtain ⟨h1, h2, h3, h4, h5, h6⟩ := hst2'
    rcases markReceived_cases st2 with hm | hm
    · grind
    · rw [hm]
      exact ⟨h1, h2, h3, h4, h5, Or.inr (Or.inr rfl)⟩
  obtain ⟨hb, ho, hf, hs, hz, hr⟩ := hst'1
  have hisSome : st.recv.isSome := by simpa [Option.isSome_iff_ne_none] using hsome
  rw [hrecv] at hr
  refine ⟨hisSome, ?_, ?_, hwithin', hb.trans hbuf, ho.trans hoff, by rw [hz, hfs], hfinal, ?_, ?_,
    hs.trans hsend⟩
  · rcases hr with hr | hr | hr <;> simp [hr, hisSome]
  · intro hne
    rcases hr with hr | hr | hr
    · rwa [hr]
    · simp [hr]
    · simp [hr]
  · rw [hf, hreceived]
  · rw [hf, ← hconn]
    simp only [ConnectionFlowControl.onDataReceived]
    omega

theorem receiveResetStream_spec {code : Nat}
    (h : receiveResetStream st sid code finalSize = (.ok (), st')) :
    (∀ n, st.finalSize = some n → n = finalSize) ∧ st.flowControl.received ≤ finalSize ∧
      st'.finalSize = some finalSize ∧ st'.flowControl = st.flowControl ∧
      st'.sendView = st.sendView := by
  unfold receiveResetStream at h
  split at h
  · cases h
  split at h
  · cases h
  · next hvalid =>
    obtain ⟨hsame, hle⟩ := validateStreamFinalSize_ok hvalid
    obtain ⟨-, rfl⟩ := Prod.mk.inj h
    exact ⟨hsame, hle, rfl, rfl, rfl⟩

/-! ## Reading -/

variable {recvBuf : OrdMap Bytes} {fuel : Nat}

theorem readLoop_of_none (h : recvBuf.find? recvOffset = none) :
    readLoop fuel room recvBuf recvOffset = ([], recvBuf, recvOffset) := by
  cases fuel with
  | zero => rfl
  | succ fuel => simp [readLoop, h]

theorem readLoop_zero_room (fuel : Nat) (recvBuf : OrdMap Bytes) (recvOffset : Nat) :
    readLoop fuel 0 recvBuf recvOffset = ([], recvBuf, recvOffset) := by
  cases fuel <;> simp [readLoop]

variable {data : Bytes}

theorem readLoop_of_some (hroom : room ≠ 0) (h : recvBuf.find? recvOffset = some data) :
    readLoop (fuel + 1) room recvBuf recvOffset =
      let copyLen := min data.length room
      let rest := readLoop fuel (room - copyLen)
        (if copyLen < data.length then
          bufferStreamRecvData (recvBuf.erase recvOffset) (recvOffset + copyLen)
            (data.drop copyLen) else recvBuf.erase recvOffset) (recvOffset + copyLen)
      (data.take copyLen ++ rest.1, rest.2) := by
  rw [readLoop, if_neg hroom, h]

theorem erase_length_lt (h : recvBuf.find? k = some data) :
    (recvBuf.erase k).entries.length < recvBuf.entries.length := by
  rw [(OrdMap.entries_erase_perm h).length_eq]
  exact Nat.lt_succ_self _

/-- The loop always ends by itself: more turns than `readFuel` change nothing. -/
theorem readLoop_fuel (room : Nat) (recvBuf : OrdMap Bytes) (recvOffset : Nat)
    (h : readFuel recvBuf ≤ fuel) :
    readLoop fuel room recvBuf recvOffset =
      readLoop (readFuel recvBuf) room recvBuf recvOffset := by
  have key : ∀ (n : Nat) (recvBuf : OrdMap Bytes) (room recvOffset fuel : Nat),
      recvBuf.entries.length ≤ n → n + 1 ≤ fuel →
      readLoop fuel room recvBuf recvOffset = readLoop (n + 1) room recvBuf recvOffset := by
    intro n
    induction n with
    | zero =>
      grind [OrdMap.find?_eq_none_iff, readLoop_of_none]
    | succ n ih =>
      intro recvBuf room recvOffset fuel hn hfuel
      obtain ⟨fuel, rfl⟩ : ∃ k, fuel = k + 1 := ⟨fuel - 1, by omega⟩
      by_cases hroom : room = 0
      · rw [hroom, readLoop_zero_room, readLoop_zero_room]
      cases hfind : recvBuf.find? recvOffset with
      | none => rw [readLoop_of_none hfind, readLoop_of_none hfind]
      | some data =>
        rw [readLoop_of_some hroom hfind, readLoop_of_some hroom hfind]
        dsimp only
        by_cases hpart : min data.length room < data.length
        · have hfull : room - min data.length room = 0 := by omega
          rw [hfull, readLoop_zero_room, readLoop_zero_room]
        · rw [if_neg hpart]
          have hlt := erase_length_lt hfind
          rw [ih _ _ _ _ (by omega) (by omega)]
  exact key _ recvBuf room recvOffset fuel (Nat.le_refl _) h

/-- What a read takes out of a buffer without touching segments: the beginning of
the segment at the read position, as far as there is room. -/
structure BufferRead (S : Bytes) (recvBuf : OrdMap Bytes) (recvOffset room : Nat) (data : Bytes)
    (recvBuf' : OrdMap Bytes) : Prop where
  data_eq : data = ((recvBuf.find? recvOffset).getD []).take room
  slice : Segment.IsSlice S (recvOffset, data)
  ok : RecvBufferOk S recvBuf'
  covered : ∀ i, Covered recvBuf'.entries i ↔
    Covered recvBuf.entries i ∧ ¬ Segment.Has (recvOffset, data) i

variable {S : Bytes}

theorem RecvBufferOk.erase_covered (h : RecvBufferOk S recvBuf)
    (hfind : recvBuf.find? k = some data) (i : Nat) : Covered (recvBuf.erase k).entries i ↔
      Covered recvBuf.entries i ∧ ¬ Segment.Has (k, data) i := by
  have hmem := OrdMap.find?_eq_some_iff.mp hfind
  constructor
  · rintro ⟨s, hs, hi⟩
    obtain ⟨hs', hne⟩ := (OrdMap.mem_erase s).mp hs
    refine ⟨⟨s, hs', hi⟩, fun hi' => ?_⟩
    rcases pairwise_cases h.separated hs' hmem with heq | hlt | hlt
    · exact hne (by rw [heq])
    all_goals grind [Segment.stop, Segment.Has]
  · rintro ⟨⟨s, hs, hi⟩, hnot⟩
    refine ⟨s, (OrdMap.mem_erase s).mpr ⟨hs, fun hk => hnot ?_⟩, hi⟩
    grind [OrdMap.entry_unique]

theorem readLoop_spec (h : RecvBufferOk S recvBuf) (recvOffset room : Nat) :
    let read := readLoop (readFuel recvBuf) room recvBuf recvOffset
    BufferRead S recvBuf recvOffset room read.1 read.2.1 ∧
      read.2.2 = recvOffset + read.1.length := by
  cases hfind : recvBuf.find? recvOffset with
  | none =>
    rw [readLoop_of_none hfind]
    exact ⟨⟨by simp [hfind], by simp [Segment.IsSlice], h, by simp⟩, by simp⟩
  | some data =>
    by_cases hroom : room = 0
    · rw [hroom, readLoop_zero_room]
      exact ⟨⟨by simp, by simp [Segment.IsSlice], h, by simp⟩, by simp⟩
    have hmem := OrdMap.find?_eq_some_iff.mp hfind
    have hslice : Segment.IsSlice S (recvOffset, data) := h.slice _ hmem
    have herase := h.erase_covered hfind
    rw [readFuel, readLoop_of_some hroom hfind]
    dsimp only
    by_cases hpart : min data.length room < data.length
    · -- the rest of the segment goes back into the buffer and there is no room left
      have hcopy : min data.length room = room := by omega
      rw [if_pos hpart, hcopy, Nat.sub_self, readLoop_zero_room]
      obtain ⟨hok, hcov⟩ := bufferStreamRecvData_spec (h.erase recvOffset) (hslice.drop room)
      have hlen : (data.take room).length = room := by
        rw [List.length_take]
        omega
      refine ⟨⟨by simp [hfind], by simpa using hslice.take room, hok, fun i => ?_⟩,
        by simp [hlen]⟩
      grind [Covered, Segment.Has]
    · -- the whole segment was read, and nothing is buffered right after it
      have hcopy : min data.length room = data.length := by omega
      have hnext : (recvBuf.erase recvOffset).find? (recvOffset + data.length) = none := by
        rw [OrdMap.find?_eq_none_iff]
        intro d hd
        have hd' := ((OrdMap.mem_erase _).mp hd).1
        have hpos : 0 < d.length := List.length_pos_iff.mpr (h.nonempty _ hd')
        refine h.separated.stop_not_covered hmem (h.nonempty _ hmem) ⟨_, hd', ?_⟩
        simp only [Segment.Has, Segment.stop]
        omega
      rw [if_neg hpart, hcopy, readLoop_of_none hnext, List.take_length, List.append_nil]
      exact ⟨⟨by simp [hfind, List.take_of_length_le (show data.length ≤ room by omega)], hslice,
        h.erase _, herase⟩, rfl⟩

structure StreamRead (S : Bytes) (st : StreamState) (bufLen : Nat) (data : Bytes) (fin : Bool)
    (st' : StreamState) : Prop where
  buffer : BufferRead S st.recvBuf st.recvOffset bufLen data st'.recvBuf
  recvOffset : st'.recvOffset = st.recvOffset + data.length
  finalSize : st'.finalSize = st.finalSize
  fin_iff : fin = true ↔ ∃ n, st.finalSize = some n ∧ n ≤ st'.recvOffset
  recv_isSome : st'.recv.isSome
  recv_reset : st'.recv ≠ some .resetRecvd
  received : st'.flowControl = st.flowControl

theorem receiveRead_spec (sid bufLen : Nat) (hsome : st.recv.isSome)
    (hreset : st.recv ≠ some .resetRecvd) (hbuf : RecvBufferOk S st.recvBuf) :
    ∃ data fin st', receiveRead st sid bufLen = (.ok (data, fin), st') ∧
      StreamRead S st bufLen data fin st' := by
  have hnone : ¬ st.recv.isNone = true := by
    grind [Option.isNone_iff_eq_none]
  obtain ⟨hread, hoff⟩ := readLoop_spec hbuf st.recvOffset bufLen
  simp only [receiveRead, if_neg hnone, if_neg hreset]
  generalize readLoop (readFuel st.recvBuf) bufLen st.recvBuf st.recvOffset = read at hread hoff ⊢
  obtain ⟨data, recvBuf', recvOffset'⟩ := read
  split
  · next hfin =>
    refine ⟨_, _, _, rfl, hread, hoff, rfl, ?_, ?_, ?_, rfl⟩
    all_goals grind [Option.any_eq_true]
  · next hfin =>
    refine ⟨_, _, _, rfl, hread, hoff, rfl, ?_, hsome, hreset, rfl⟩
    simpa [Option.any_eq_true] using hfin

theorem receiveRead_keeps {bufLen : Nat} {res : Except QuicError (Bytes × Bool)}
    (h : receiveRead st sid bufLen = (res, st')) :
    st'.flowControl = st.flowControl ∧ st'.finalSize = st.finalSize ∧
      st'.sendView = st.sendView := by
  unfold receiveRead at h
  dsimp only at h
  split at h
  · grind
  split at h
  · obtain ⟨-, rfl⟩ := Prod.mk.inj h
    exact ⟨rfl, rfl, rfl⟩
  split at h
  · obtain ⟨-, rfl⟩ := Prod.mk.inj h
    exact ⟨rfl, rfl, rfl⟩
  · obtain ⟨-, rfl⟩ := Prod.mk.inj h
    exact ⟨rfl, rfl, rfl⟩

/-! ## The receive part of one stream -/

abbrev TransportTrace := List (TransportEvent × TransportResponse)

/-- The receive part of a stream that does not exist yet. -/
def emptyView : RecvView := ⟨none, OrdMap.empty, 0, none, 0⟩

def viewOf (t : Transport) (sid : Nat) : RecvView :=
  ((t.streams.get sid).map StreamState.recvView).getD emptyView

theorem viewOf_some {t : Transport} (h : t.streams.get sid = some st) :
    viewOf t sid = st.recvView := by
  simp [viewOf, h]

/-- The event says nothing about data received on stream `sid`. -/
def RecvSilent (sid : Nat) : TransportEvent → TransportResponse → Prop
  | .frame (.stream f), _ => f.streamId ≠ sid
  | .frame (.resetStream id _ _), _ => id ≠ sid
  | .recv id _, .received _ _ => id ≠ sid
  | _, _ => True

/-- The stream before a frame: as it was, or created by the frame. -/
def StreamBefore (t : Transport) (sid : Nat) (st : StreamState) : Prop :=
  t.streams.get sid = some st ∨ (t.streams.get sid = none ∧ StreamManager.IsFresh sid st)

/-- What a step can do to the receive part of stream `sid`. -/
inductive RecvChange (t : Transport) (sid : Nat) :
    TransportEvent → TransportResponse → Transport → Prop
  | same {e : TransportEvent} {r : TransportResponse} {u : Transport} (hsilent : RecvSilent sid e r)
      (hview : (u.streams.get sid).map StreamState.recvView =
        (t.streams.get sid).map StreamState.recvView) : RecvChange t sid e r u
  | created {e : TransportEvent} {r : TransportResponse} {u : Transport} {st : StreamState}
      (hsilent : RecvSilent sid e r) (hnone : t.streams.get sid = none)
      (hget : (u.streams.get sid).map StreamState.recvView = some st.recvView)
      (hfresh : StreamManager.IsFresh sid st) : RecvChange t sid e r u
  | stream {f : StreamFrame} {st st' : StreamState} {u : Transport} (hsid : f.streamId = sid)
      (hbefore : StreamBefore t sid st) (hget : u.streams.get sid = some st')
      (hrecv : StreamReceived st t.flowControl f st' u.flowControl) :
      RecvChange t sid (.frame (.stream f)) .done u
  | reset {code finalSize : Nat} {st st' : StreamState} {u : Transport}
      (hbefore : StreamBefore t sid st) (hget : u.streams.get sid = some st')
      (hrecv : receiveResetStream st sid code finalSize = (.ok (), st')) :
      RecvChange t sid (.frame (.resetStream sid code finalSize)) .done u
  | read {bufLen : Nat} {st st' : StreamState} {res : Except QuicError (Bytes × Bool)}
      {u : Transport} (hst : t.streams.get sid = some st) (hget : u.streams.get sid = some st')
      (hread : receiveRead st sid bufLen = (res, st')) :
      RecvChange t sid (.recv sid bufLen) (Transport.readResponse res) u

namespace Transport

variable {t u : Transport} {e : TransportEvent} {r : TransportResponse}

theorem Accepted.before {t' : Transport}
    (h : Accepted t t' sid) (hst : t'.streams.get sid = some st) : StreamBefore t sid st := by
  rcases h.creates sid with hsame | ⟨hnone, st', hst', hfresh⟩
  · exact Or.inl (hsame ▸ hst)
  · obtain rfl := Option.some.inj (hst'.symm.trans hst)
    exact Or.inr ⟨hnone, hfresh⟩

theorem RecvChange.of_creates {m : StreamManager} (hsilent : RecvSilent sid e r)
    (hcreates : t.streams.Creates m) (hview : (u.streams.get sid).map StreamState.recvView =
      (m.get sid).map StreamState.recvView) : RecvChange t sid e r u := by
  rcases hcreates sid with hsame | ⟨hnone, st, hst, hfresh⟩
  · exact .same hsilent (by rw [hview, hsame])
  · exact .created hsilent hnone (by rw [hview, hst]; rfl) hfresh

theorem StepCases.recvChange (h : StepCases t e r u) (sid : Nat) : RecvChange t sid e r u := by
  cases h with
  | quiet hquiet hsame =>
    refine .same ?_ (hsame.recv sid)
    cases e with
    | frame frame => cases frame <;> trivial
    | recv id bufLen => cases r <;> trivial
    | _ => cases r <;> trivial
  | opened he hnum hcreates =>
    refine RecvChange.of_creates ?_ hcreates rfl
    rcases he with rfl | rfl <;> trivial
  | @stream f t' st st' conn hacc hst hrecv =>
    by_cases hsid : f.streamId = sid
    · subst hsid
      have hspec := receiveStreamFrame_spec hrecv
      rw [hacc.flowControl] at hspec
      exact .stream rfl (hacc.before hst) (by simp [setStream]) hspec
    · refine RecvChange.of_creates hsid hacc.creates ?_
      simp [setStream, Ne.symm hsid]
  | @reset id code finalSize t' st st' hacc hst hrecv =>
    by_cases hsid : id = sid
    · subst hsid
      exact .reset (hacc.before hst) (by simp [setStream]) hrecv
    · refine RecvChange.of_creates hsid hacc.creates ?_
      simp [setStream, Ne.symm hsid]
  | @stopSending id code t' st hacc hst hsend =>
    refine RecvChange.of_creates trivial hacc.creates ?_
    simp only [setStream, pushBack, StreamManager.get_set]
    split
    · next hsid =>
      subst hsid
      rw [hst]
      rfl
    · rfl
  | @acknowledged f st hst =>
    refine .same trivial ?_
    simp only [setStream, StreamManager.get_set]
    split
    · next hsid =>
      subst hsid
      simp only [hst]
      unfold Transport.acknowledged StreamState.acknowledgeSentData
      dsimp only
      split <;> split <;> split <;> rfl
    · rfl
  | @write state kind id data fin actualFin st len hsendable hst hsend hlen hfin hany =>
    refine .same trivial ?_
    simp only [setStream, StreamManager.get_set]
    split
    · next hsid =>
      subst hsid
      rw [hst]
      rfl
    · rfl
  | @read id bufLen st st' res hst hread =>
    by_cases hsid : id = sid
    · subst hsid
      exact .read hst (by simp [setStream]) hread
    · refine .same ?_ (by simp [setStream, Ne.symm hsid])
      cases res <;> trivial

end Transport

end Starfish.Quic
