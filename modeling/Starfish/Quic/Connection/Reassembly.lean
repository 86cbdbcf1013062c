import Starfish.Quic.Connection.StreamRecvSteps

/-!
# Reassembly of a stream

The bytes the application reads from a stream are compared with the string the
peer sends on it. What has been carried to the stream and what has been read from
it are functions of the trace.
-/

namespace Starfish.Quic

def returned (sid : Nat) (tr : TransportTrace) : Bytes :=
  tr.flatMap fun x => match x with
    | (.recv id _, .received data _) => if id = sid then data else []
    | _ => []

/-- Some accepted STREAM frame of the stream carried byte `i`. -/
def Carried (sid : Nat) (tr : TransportTrace) (i : Nat) : Prop :=
  ∃ f r, (.frame (.stream f), r) ∈ tr ∧ f.streamId = sid ∧ Segment.Has (f.offset, f.data) i

/-- Some accepted STREAM frame with FIN ended at offset `n`. -/
def FinAt (sid : Nat) (tr : TransportTrace) (n : Nat) : Prop :=
  ∃ f r, (.frame (.stream f), r) ∈ tr ∧ f.streamId = sid ∧ f.fin = true ∧
    f.offset + f.data.length = n

/-- All that is assumed about the peer: its frames for the stream carry parts of
`S`, and it does not reset the stream. -/
def CarriesParts (S : Bytes) (sid : Nat) : TransportEvent → Prop
  | .frame (.stream f) => f.streamId = sid →
      Segment.IsSlice S (f.offset, f.data) ∧ f.offset + f.data.length ≤ S.length
  | .frame (.resetStream id _ _) => id ≠ sid
  | _ => True

def Held (st : StreamState) (f : StreamFrame) (i : Nat) : Prop :=
  Covered st.recvBuf.entries i ∨ Segment.Has (f.offset, f.data) i

/-- A STREAM frame does not bring the last byte read and the next byte to be read
together in the buffer. -/
def NoStaleJoin (sid : Nat) (t : Transport) : TransportEvent → Prop
  | .frame (.stream f) => f.streamId = sid → ∀ st, t.streams.get sid = some st →
      0 < st.recvOffset → ¬ (Held st f (st.recvOffset - 1) ∧ Held st f st.recvOffset)
  | _ => True

/-- The application reads `S` from the stream: what has been read is a prefix of
it, everything carried without a gap can be read, and FIN is told at the end. -/
structure ExactReassembly (S : Bytes) (sid : Nat) (tr : TransportTrace) (t : Transport) :
    Prop where
  sound : returned sid tr <+: S
  complete : ∀ n bufLen, (∀ i < n, Carried sid tr i) → (returned sid tr).length < n →
    n - (returned sid tr).length ≤ bufLen →
    ∃ data fin u, t.step (.recv sid bufLen) = some (.received data fin, u) ∧
      S.take n <+: returned sid tr ++ data
  fin_iff : ∀ bufLen data fin u, t.step (.recv sid bufLen) = some (.received data fin, u) →
    (fin = true ↔ ∃ n, FinAt sid tr n ∧ S.take n <+: returned sid tr ++ data)

/-! ## Traces -/

section Trace

variable {sid : Nat} {tr : TransportTrace} {e : TransportEvent} {r : TransportResponse}

theorem returned_snoc : returned sid (tr ++ [(e, r)]) = returned sid tr ++ returned sid [(e, r)] := by
  simp [returned]

variable (i : Nat)

theorem carried_snoc :
    Carried sid (tr ++ [(e, r)]) i ↔ Carried sid tr i ∨ Carried sid [(e, r)] i := by
  simp only [Carried, List.mem_append, or_and_right, exists_or]

variable (n : Nat)

theorem finAt_snoc :
    FinAt sid (tr ++ [(e, r)]) n ↔ FinAt sid tr n ∨ FinAt sid [(e, r)] n := by
  simp only [FinAt, List.mem_append, or_and_right, exists_or]

theorem RecvSilent.returned_snoc (h : RecvSilent sid e r) :
    returned sid (tr ++ [(e, r)]) = returned sid tr := by
  cases e with
  | recv id bufLen =>
    cases r with
    | received data fin => simp [returned, show id ≠ sid from h]
    | _ => simp [returned]
  | _ => simp [returned]

theorem RecvSilent.carried_snoc (h : RecvSilent sid e r) (i : Nat) :
    Carried sid (tr ++ [(e, r)]) i ↔ Carried sid tr i := by
  rw [Quic.carried_snoc, or_iff_left]
  rintro ⟨f, r', hmem, hsid, -⟩
  obtain ⟨rfl, -⟩ := Prod.mk.inj (List.mem_singleton.mp hmem)
  exact h hsid

theorem RecvSilent.finAt_snoc (h : RecvSilent sid e r) (n : Nat) :
    FinAt sid (tr ++ [(e, r)]) n ↔ FinAt sid tr n := by
  rw [Quic.finAt_snoc, or_iff_left]
  rintro ⟨f, r', hmem, hsid, -⟩
  obtain ⟨rfl, -⟩ := Prod.mk.inj (List.mem_singleton.mp hmem)
  exact h hsid

theorem carried_stream {f : StreamFrame} (hsid : f.streamId = sid) (i : Nat) :
    Carried sid [(.frame (.stream f), r)] i ↔ Segment.Has (f.offset, f.data) i := by
  constructor
  · rintro ⟨f', r', hmem, -, hi⟩
    grind
  · exact fun hi => ⟨f, r, List.mem_singleton.mpr rfl, hsid, hi⟩

theorem finAt_stream {f : StreamFrame} (hsid : f.streamId = sid) (n : Nat) :
    FinAt sid [(.frame (.stream f), r)] n ↔
      f.fin = true ∧ f.offset + f.data.length = n := by
  constructor
  · rintro ⟨f', r', hmem, -, hfin⟩
    grind
  · exact fun hfin => ⟨f, r, List.mem_singleton.mpr rfl, hsid, hfin⟩

end Trace

/-! ## The invariant -/

/-- How the receive part of a stream reflects the trace: from the read position on
the buffer holds what has been carried. Below it, it may hold bytes again. -/
structure Reflects (S : Bytes) (sid : Nat) (tr : TransportTrace) (v : RecvView) : Prop where
  buffer : RecvBufferOk S v.recvBuf
  returned_eq : returned sid tr = S.take v.recvOffset
  offset_le : v.recvOffset ≤ S.length
  carried_of_covered : ∀ i, Covered v.recvBuf.entries i → Carried sid tr i
  carried_of_lt : ∀ i, i < v.recvOffset → Carried sid tr i
  covered_of_carried : ∀ i, v.recvOffset ≤ i → Carried sid tr i → Covered v.recvBuf.entries i
  finalSize_iff : ∀ n, v.finalSize = some n ↔ FinAt sid tr n
  finalSize_le : ∀ n, v.finalSize = some n → n ≤ S.length
  receives : ∀ i, Carried sid tr i → v.recv.isSome
  not_reset : v.recv ≠ some .resetRecvd

/-- The bytes around the read position are not in one segment. -/
def Aligned (v : RecvView) : Prop :=
  0 < v.recvOffset → ¬ (Covered v.recvBuf.entries (v.recvOffset - 1) ∧
    Covered v.recvBuf.entries v.recvOffset)

theorem reflects_empty (S : Bytes) (sid : Nat) : Reflects S sid [] emptyView where
  buffer := RecvBufferOk.empty S
  returned_eq := rfl
  offset_le := Nat.zero_le _
  carried_of_covered := by simp [emptyView]
  carried_of_lt := by simp [emptyView]
  covered_of_carried := by simp [Carried]
  finalSize_iff := by simp [emptyView, FinAt]
  finalSize_le := by simp [emptyView]
  receives := by simp [Carried]
  not_reset := by simp [emptyView]

variable {S : Bytes} {sid : Nat} {tr : TransportTrace} {v : RecvView}

theorem Reflects.silent {e : TransportEvent} {r : TransportResponse} (h : Reflects S sid tr v)
    (hsilent : RecvSilent sid e r) : Reflects S sid (tr ++ [(e, r)]) v where
  buffer := h.buffer
  returned_eq := hsilent.returned_snoc.trans h.returned_eq
  offset_le := h.offset_le
  carried_of_covered := fun i hi => (hsilent.carried_snoc i).mpr (h.carried_of_covered i hi)
  carried_of_lt := fun i hi => (hsilent.carried_snoc i).mpr (h.carried_of_lt i hi)
  covered_of_carried := fun i hle hi =>
    h.covered_of_carried i hle ((hsilent.carried_snoc i).mp hi)
  finalSize_iff := fun n => (h.finalSize_iff n).trans (hsilent.finAt_snoc n).symm
  finalSize_le := h.finalSize_le
  receives := fun i hi => h.receives i ((hsilent.carried_snoc i).mp hi)
  not_reset := h.not_reset

variable {st : StreamState}

theorem Reflects.fresh (h : Reflects S sid tr emptyView) (hfresh : StreamManager.IsFresh sid st) :
    Reflects S sid tr st.recvView := by
  obtain ⟨direction, isLocal, sendMax, recvMax, rfl⟩ := hfresh
  refine ⟨h.buffer, h.returned_eq, h.offset_le, h.carried_of_covered, h.carried_of_lt,
    h.covered_of_carried, h.finalSize_iff, h.finalSize_le, ?_, ?_⟩
  · intro i hi
    exact absurd (h.receives i hi) (by simp [emptyView])
  · cases direction <;> cases isLocal <;> simp [StreamState.recvView, StreamState.new]

variable {t : Transport}

theorem Reflects.before (h : Reflects S sid tr (viewOf t sid)) (hbefore : StreamBefore t sid st) :
    Reflects S sid tr st.recvView := by
  rcases hbefore with hst | ⟨hnone, hfresh⟩
  · rwa [viewOf_some hst] at h
  · rw [viewOf, hnone] at h
    exact h.fresh hfresh

variable {st' : StreamState}

theorem Reflects.stream {conn conn' : ConnectionFlowControl} {f : StreamFrame}
    {r : TransportResponse} (h : Reflects S sid tr st.recvView) (hsid : f.streamId = sid)
    (hrecv : StreamReceived st conn f st' conn') (hparts : CarriesParts S sid (.frame (.stream f)))
    :
    Reflects S sid (tr ++ [(.frame (.stream f), r)]) st'.recvView ∧
      ∀ i, Covered st'.recvBuf.entries i ↔ Held st f i := by
  obtain ⟨hslice, hstop⟩ := hparts hsid
  obtain ⟨hok, hcov⟩ := bufferStreamRecvData_spec h.buffer hslice
  have hcov' : ∀ i, Covered st'.recvBuf.entries i ↔ Held st f i := by
    intro i
    rw [hrecv.recvBuf]
    exact hcov i
  have hcarried : ∀ i, Carried sid (tr ++ [(.frame (.stream f), r)]) i ↔
      Carried sid tr i ∨ Segment.Has (f.offset, f.data) i := by
    intro i
    rw [carried_snoc, carried_stream hsid]
  refine ⟨⟨?_, ?_, ?_, ?_, ?_, ?_, ?_, ?_, fun _ _ => hrecv.recv_isSome', ?_⟩, hcov'⟩
  · rw [StreamState.recvView, hrecv.recvBuf]
    exact hok
  · rw [returned_snoc, h.returned_eq]
    simp [returned, StreamState.recvView, hrecv.recvOffset]
  · rw [StreamState.recvView, hrecv.recvOffset]
    exact h.offset_le
  · intro i hi
    rw [hcarried]
    exact ((hcov' i).mp hi).imp_left (h.carried_of_covered i)
  · grind [cases StreamReceived, cases Reflects, StreamState.recvView]
  · grind [cases StreamReceived, cases Reflects, StreamState.recvView]
  · intro n
    rw [finAt_snoc, finAt_stream hsid, ← h.finalSize_iff n]
    simp only [StreamState.recvView, hrecv.finalSize]
    by_cases hfin : f.fin = true
    · have hsame := (hrecv.final hfin).1 n
      grind
    · simp [hfin]
  · grind [cases StreamReceived, cases Reflects, StreamState.recvView]
  · exact hrecv.recv_reset h.not_reset

variable {bufLen : Nat} {data : Bytes} {fin : Bool}

theorem returned_read :
    returned sid [(.recv sid bufLen, .received data fin)] = data := by
  simp [returned]

theorem Reflects.read (h : Reflects S sid tr st.recvView)
    (hread : StreamRead S st bufLen data fin st') :
    Reflects S sid (tr ++ [(.recv sid bufLen, .received data fin)]) st'.recvView := by
  have hcarried : ∀ i, Carried sid (tr ++ [(.recv sid bufLen, .received data fin)]) i ↔
      Carried sid tr i := by
    intro i
    rw [carried_snoc, or_iff_left]
    rintro ⟨f, r', hmem, -⟩
    grind
  have hfinAt : ∀ n, FinAt sid (tr ++ [(.recv sid bufLen, .received data fin)]) n ↔
      FinAt sid tr n := by
    intro n
    rw [finAt_snoc, or_iff_left]
    rintro ⟨f, r', hmem, -⟩
    grind
  have hret : S.take st.recvOffset ++ data = S.take st'.recvOffset := by
    rw [hread.recvOffset]
    exact hread.buffer.slice.take_append
  -- every byte that was read had been in the buffer
  have hhas : ∀ i, Segment.Has (st.recvOffset, data) i → Covered st.recvBuf.entries i := by
    intro i hi
    have hdata := hread.buffer.data_eq
    cases hfind : st.recvBuf.find? st.recvOffset with
    | none => simp [hdata, hfind] at hi
    | some seg =>
      refine ⟨_, OrdMap.find?_eq_some_iff.mp hfind, ?_⟩
      grind [Segment.Has]
  refine ⟨hread.buffer.ok, ?_, ?_, ?_, ?_, ?_, ?_, ?_, fun _ _ => hread.recv_isSome,
    hread.recv_reset⟩
  · rw [returned_snoc, h.returned_eq, returned_read]
    exact hret
  · by_cases hdata : data = []
    · grind [cases StreamRead, cases Reflects, StreamState.recvView]
    · have hstop := hread.buffer.slice.stop_le hdata
      simp only [StreamState.recvView, hread.recvOffset]
      exact hstop
  · intro i hi
    rw [hcarried]
    exact h.carried_of_covered i ((hread.buffer.covered i).mp hi).1
  · intro i hi
    rw [hcarried]
    by_cases hlt : i < st.recvOffset
    · exact h.carried_of_lt i hlt
    · simp only [StreamState.recvView, hread.recvOffset] at hi
      exact h.carried_of_covered i (hhas i ⟨Nat.le_of_not_lt hlt, hi⟩)
  · intro i hle hi
    simp only [StreamState.recvView, hread.recvOffset] at hle
    refine (hread.buffer.covered i).mpr ⟨h.covered_of_carried i ?_ ((hcarried i).mp hi), ?_⟩
    · exact Nat.le_trans (Nat.le_add_right _ _) hle
    · exact fun hin => absurd hin.2 (Nat.not_lt.mpr hle)
  · intro n
    rw [hfinAt, ← h.finalSize_iff n, StreamState.recvView, hread.finalSize]
    rfl
  · intro n hn
    rw [StreamState.recvView, hread.finalSize] at hn
    exact h.finalSize_le n hn

theorem Reflects.returned_append (h : Reflects S sid tr st.recvView)
    (hread : StreamRead S st bufLen data fin st') :
    returned sid tr ++ data = S.take st'.recvOffset := by
  have hafter := (h.read hread).returned_eq
  rwa [returned_snoc, returned_read] at hafter

theorem Reflects.returned_length (h : Reflects S sid tr st.recvView) :
    (returned sid tr).length = st.recvOffset := by
  rw [h.returned_eq, List.length_take]
  exact Nat.min_eq_left h.offset_le

/-! ## Exactness is alignment -/

theorem step_recv_ok (hst : t.streams.get sid = some st)
    (hread : receiveRead st sid bufLen = (.ok (data, fin), st')) :
    t.step (.recv sid bufLen) = some (.received data fin, t.setStream sid st') := by
  simp [Transport.step, Transport.streamRecv, hst, hread]

variable {u : Transport}

theorem step_recv_inv (h : t.step (.recv sid bufLen) = some (.received data fin, u)) :
    ∃ st st', t.streams.get sid = some st ∧ receiveRead st sid bufLen = (.ok (data, fin), st') := by
  grind [Transport.step, Transport.streamRecv]

theorem Reflects.exists_read (h : Reflects S sid tr (viewOf t sid)) {i : Nat}
    (hi : Carried sid tr i) (bufLen : Nat) :
    ∃ st data fin st', t.streams.get sid = some st ∧
      t.step (.recv sid bufLen) = some (.received data fin, t.setStream sid st') ∧
      StreamRead S st bufLen data fin st' := by
  have hsome := h.receives i hi
  cases hst : t.streams.get sid with
  | none => simp [viewOf, hst, emptyView] at hsome
  | some st =>
    rw [viewOf_some hst] at h hsome
    obtain ⟨data, fin, st', hread, hspec⟩ := receiveRead_spec sid bufLen hsome h.not_reset h.buffer
    grind [step_recv_ok]

theorem StreamRead.of_step (h : Reflects S sid tr (viewOf t sid))
    (hstep : t.step (.recv sid bufLen) = some (.received data fin, u)) :
    ∃ st st', t.streams.get sid = some st ∧ StreamRead S st bufLen data fin st' := by
  obtain ⟨st, st', hst, hread⟩ := step_recv_inv hstep
  rw [viewOf_some hst] at h
  have hsome : st.recv.isSome := by
    by_contra hnone
    simp [receiveRead, Option.not_isSome_iff_eq_none.mp hnone] at hread
  obtain ⟨data', fin', st'', hread', hspec⟩ := receiveRead_spec sid bufLen hsome h.not_reset h.buffer
  grind

theorem Reflects.fin_iff (h : Reflects S sid tr st.recvView)
    (hread : StreamRead S st bufLen data fin st') :
    fin = true ↔ ∃ n, FinAt sid tr n ∧ S.take n <+: returned sid tr ++ data := by
  have hafter := h.read hread
  rw [hread.fin_iff, h.returned_append hread]
  refine exists_congr fun n => ?_
  have hfin := h.finalSize_iff n
  constructor
  · rintro ⟨hn, hle⟩
    exact ⟨hfin.mp hn, List.take_prefix_take_left hle⟩
  · rintro ⟨hn, hle⟩
    refine ⟨hfin.mpr hn, ?_⟩
    have hlen := hle.length_le
    have hn' : n ≤ S.length := h.finalSize_le n (hfin.mpr hn)
    rw [List.length_take, List.length_take] at hlen
    omega

/-- In an aligned buffer the segment at the read position holds everything that
has been carried without a gap. -/
theorem Reflects.segment_at_offset (h : Reflects S sid tr st.recvView)
    (haligned : Aligned st.recvView) {n : Nat} (hn : st.recvOffset < n)
    (hcarried : ∀ i < n, Carried sid tr i) :
    ∃ data, st.recvBuf.find? st.recvOffset = some data ∧ n ≤ st.recvOffset + data.length := by
  have hcov : ∀ i, st.recvOffset ≤ i → i < n → Covered st.recvBuf.entries i := fun i hle hi =>
    h.covered_of_carried i hle (hcarried i hi)
  obtain ⟨⟨start, data⟩, hmem, hhas⟩ := hcov st.recvOffset (Nat.le_refl _) hn
  have hstart : start = st.recvOffset := by
    by_contra hne
    have hlt : start < st.recvOffset := Nat.lt_of_le_of_ne hhas.1 hne
    refine haligned (show 0 < st.recvOffset by omega) ⟨⟨_, hmem, ?_⟩, ⟨_, hmem, hhas⟩⟩
    grind [Segment.Has, StreamState.recvView]
  subst hstart
  refine ⟨data, OrdMap.find?_eq_some_iff.mpr hmem, ?_⟩
  by_contra hlt
  have hnot := h.buffer.separated.stop_not_covered hmem (h.buffer.nonempty _ hmem)
  exact hnot (hcov _ (Nat.le_add_right _ _) (Nat.lt_of_not_le hlt))

theorem Reflects.no_segment_at_offset (h : Reflects S sid tr st.recvView) {d : Bytes}
    (hpos : 0 < st.recvOffset) (hprev : Covered st.recvBuf.entries (st.recvOffset - 1)) :
    st.recvBuf.find? st.recvOffset ≠ some d := by
  intro hfind
  have hmem := OrdMap.find?_eq_some_iff.mp hfind
  have hdpos : 0 < d.length := List.length_pos_iff.mpr (h.buffer.nonempty _ hmem)
  obtain ⟨s, hs, hi⟩ := hprev
  have hnext : Segment.Has (st.recvOffset, d) (st.recvOffset - 1 + 1) := by
    simp only [Segment.Has]
    omega
  have heq := h.buffer.separated.same_segment hs hmem hi hnext
  rw [heq] at hi
  simp only [Segment.Has] at hi
  omega

theorem exactReassembly_iff_aligned (h : Reflects S sid tr (viewOf t sid)) :
    ExactReassembly S sid tr t ↔ Aligned (viewOf t sid) := by
  constructor
  · intro hexact hpos ⟨hprev, hcur⟩
    have hcarried : ∀ i < (viewOf t sid).recvOffset + 1, Carried sid tr i := by
      grind [cases Reflects]
    obtain ⟨st, -, -, -, hst, -, -⟩ := h.exists_read (hcarried 0 (Nat.succ_pos _)) 0
    rw [viewOf_some hst] at hpos hprev hcur hcarried
    have hview := h
    rw [viewOf_some hst] at hview
    have hlen := hview.returned_length
    obtain ⟨data, fin, u, hstep, hle⟩ := hexact.complete (st.recvOffset + 1) 1 hcarried
      (by omega) (by omega)
    obtain ⟨st1, st', hst1, hread⟩ := StreamRead.of_step h hstep
    obtain rfl := Option.some.inj (hst.symm.trans hst1)
    have hnone : st.recvBuf.find? st.recvOffset = none := by
      cases hfind : st.recvBuf.find? st.recvOffset with
      | none => rfl
      | some d => exact absurd hfind (hview.no_segment_at_offset hpos hprev)
    have hdata : data = [] := by simpa [hnone] using hread.buffer.data_eq
    -- the byte at the read position is carried, so it is inside `S`
    obtain ⟨s, hs, hi⟩ := hcur
    have hin := (hview.buffer.slice s hs).stop_le (hview.buffer.nonempty s hs)
    grind [Segment.Has, Segment.stop, StreamState.recvView]
  · intro haligned
    refine ⟨?_, ?_, ?_⟩
    · rw [h.returned_eq]
      exact List.take_prefix _ _
    · intro n bufLen hcarried hlt hbuf
      obtain ⟨st, data, fin, st', hst, hstep, hread⟩ :=
        h.exists_read (hcarried 0 (by omega)) bufLen
      rw [viewOf_some hst] at h haligned
      rw [h.returned_length] at hlt hbuf
      obtain ⟨seg, hfind, hseg⟩ := h.segment_at_offset haligned hlt hcarried
      refine ⟨data, fin, _, hstep, ?_⟩
      rw [h.returned_append hread, hread.recvOffset]
      refine List.take_prefix_take_left ?_
      rw [hread.buffer.data_eq, hfind, Option.getD_some, List.length_take]
      omega
    · intro bufLen data fin u hstep
      obtain ⟨st, st', hst, hread⟩ := StreamRead.of_step h hstep
      rw [viewOf_some hst] at h
      exact h.fin_iff hread

/-! ## Steps and runs -/

/-- Every step keeps the reflection, and from an aligned state it leads to an
aligned one exactly if it joins no stale byte with a new one. -/
theorem reflects_step {e : TransportEvent} {r : TransportResponse}
    (h : Reflects S sid tr (viewOf t sid)) (hcases : Transport.StepCases t e r u)
    (hparts : CarriesParts S sid e) :
    Reflects S sid (tr ++ [(e, r)]) (viewOf u sid) ∧
      (Aligned (viewOf t sid) → (Aligned (viewOf u sid) ↔ NoStaleJoin sid t e)) := by
  have hquiet : ∀ {e r}, RecvSilent sid e r → NoStaleJoin sid t e := by
    intro e r hsilent
    cases e with
    | frame frame =>
      cases frame with
      | stream f => exact fun hsid => absurd hsid hsilent
      | _ => trivial
    | _ => trivial
  cases hcases.recvChange sid with
  | same hsilent hview =>
    have hv : viewOf u sid = viewOf t sid := by rw [viewOf, hview, viewOf]
    rw [hv]
    exact ⟨h.silent hsilent, fun ha => iff_of_true ha (hquiet hsilent)⟩
  | @created _ _ _ st hsilent hnone hget hfresh =>
    have hv : viewOf u sid = st.recvView := by rw [viewOf, hget, Option.getD_some]
    rw [hv]
    rw [viewOf, hnone] at h
    refine ⟨(h.silent hsilent).fresh hfresh, fun _ => iff_of_true ?_ (hquiet hsilent)⟩
    obtain ⟨direction, isLocal, sendMax, recvMax, rfl⟩ := hfresh
    exact fun hpos => absurd hpos (Nat.lt_irrefl 0)
  | @stream f st st' u hsid hbefore hget hrecv =>
    obtain ⟨hreflects, hcov⟩ := (h.before hbefore).stream (r := .done) hsid hrecv hparts
    rw [viewOf_some hget]
    refine ⟨hreflects, fun _ => ?_⟩
    simp only [Aligned, StreamState.recvView, hcov, hrecv.recvOffset, NoStaleJoin]
    rcases hbefore with hst | ⟨hnone, hfresh⟩
    · grind
    · obtain ⟨direction, isLocal, sendMax, recvMax, rfl⟩ := hfresh
      exact iff_of_true (fun hpos => absurd hpos (Nat.lt_irrefl 0))
        fun _ st1 hst1 => absurd hst1 (by simp [hnone])
  | reset _ _ _ => exact absurd rfl hparts
  | @read bufLen st st' res u hst hget hread =>
    rw [viewOf_some hst] at h
    rw [viewOf_some hst, viewOf_some hget]
    by_cases hsome : st.recv.isSome
    · obtain ⟨data, fin, st'', hread', hspec⟩ :=
        receiveRead_spec sid bufLen hsome h.not_reset h.buffer
      rw [hread'] at hread
      obtain ⟨rfl, rfl⟩ := Prod.mk.inj hread
      refine ⟨h.read hspec, fun ha => iff_of_true ?_ trivial⟩
      -- what has been read is not in the buffer any more
      rintro hpos ⟨hprev, hcur⟩
      simp only [StreamState.recvView, hspec.recvOffset, hspec.buffer.covered] at hpos hprev hcur
      by_cases hdata : data.length = 0
      · rw [hdata, Nat.add_zero] at hpos hprev hcur
        exact ha hpos ⟨hprev.1, hcur.1⟩
      · refine hprev.2 ⟨?_, ?_⟩ <;> dsimp only <;> omega
    · have hnone := Option.not_isSome_iff_eq_none.mp hsome
      simp only [receiveRead, hnone, Option.isNone_none, if_true] at hread
      obtain ⟨rfl, rfl⟩ := Prod.mk.inj hread
      exact ⟨h.silent trivial, fun ha => iff_of_true ha trivial⟩

theorem reflects_run {side : Side} {maxBidi maxUni maxStreamData maxData : Nat}
    (hrun : Run Transport.step (fun t e => CarriesParts S sid e ∧ NoStaleJoin sid t e) (Transport.new side maxBidi maxUni maxStreamData maxData) tr t)
    :
    t.streams.Numbered ∧ Reflects S sid tr (viewOf t sid) ∧ Aligned (viewOf t sid) := by
  refine hrun.invariant (I := fun tr t => t.streams.Numbered ∧
    Reflects S sid tr (viewOf t sid) ∧ Aligned (viewOf t sid)) ?_ ?_
  · exact ⟨StreamManager.new_numbered side maxBidi maxUni maxStreamData, reflects_empty S sid,
      fun hpos => absurd hpos (Nat.lt_irrefl 0)⟩
  · rintro tr t e r u ⟨hnum, hreflects, haligned⟩ ⟨hparts, hjoin⟩ hstep
    have hcases := Transport.step_cases hnum hstep
    obtain ⟨hreflects', haligned'⟩ := reflects_step hreflects hcases hparts
    exact ⟨hcases.numbered hnum, hreflects', (haligned' haligned).mpr hjoin⟩

/-- As long as no STREAM frame joins a byte that has been read with the next one,
the application reads exactly what was sent. The first frame that does so ends it. -/
theorem exact_reassembly_iff {side : Side} {maxBidi maxUni maxStreamData maxData : Nat}
    (S : Bytes) (sid : Nat) {tr : TransportTrace} {t : Transport}
    (hrun : Run Transport.step (fun t e => CarriesParts S sid e ∧ NoStaleJoin sid t e)
      (Transport.new side maxBidi maxUni maxStreamData maxData) tr t) :
    ExactReassembly S sid tr t ∧ ∀ e r u, CarriesParts S sid e → t.step e = some (r, u) →
      (ExactReassembly S sid (tr ++ [(e, r)]) u ↔ NoStaleJoin sid t e) := by
  obtain ⟨hnum, hreflects, haligned⟩ := reflects_run hrun
  refine ⟨(exactReassembly_iff_aligned hreflects).mpr haligned, ?_⟩
  intro e r u hparts hstep
  obtain ⟨hreflects', haligned'⟩ :=
    reflects_step hreflects (Transport.step_cases hnum hstep) hparts
  rw [exactReassembly_iff_aligned hreflects', haligned' haligned]

/-- Byte 0 arrives and is read, then byte 1 arrives. -/
theorem exact_reassembly_two_bytes : ∃ t u,
    (Transport.new .server 1 1 10 10).step (.frame (.stream ⟨0, 0, false, [10]⟩)) =
      some (.done, t) ∧
    t.step (.recv 0 1) = some (.received [10] false, u) ∧
    ExactReassembly [10, 20] 0
      [(.frame (.stream ⟨0, 0, false, [10]⟩), .done), (.recv 0 1, .received [10] false)] u ∧
    ∃ v, u.step (.frame (.stream ⟨0, 1, true, [20]⟩)) = some (.done, v) ∧
      ExactReassembly [10, 20] 0
        ([(.frame (.stream ⟨0, 0, false, [10]⟩), .done), (.recv 0 1, .received [10] false)] ++
          [(.frame (.stream ⟨0, 1, true, [20]⟩), .done)]) v := by
  have hrun := exact_reassembly_iff [10, 20] 0
    (((Run.nil (s := Transport.new .server 1 1 10 10)).push
      (.frame (.stream ⟨0, 0, false, [10]⟩)) rfl
      ⟨fun _ => ⟨by simp [Segment.IsSlice], by decide⟩, fun _ st hst => by cases hst⟩).push
      (TransportEvent.recv 0 1) rfl ⟨trivial, trivial⟩)
  refine ⟨_, _, rfl, rfl, hrun.1, _, rfl, ?_⟩
  refine (hrun.2 (.frame (.stream ⟨0, 1, true, [20]⟩)) .done _ ?_ rfl).mpr ?_
  · exact fun _ => ⟨by simp [Segment.IsSlice], by decide⟩
  · intro _ st hst
    obtain rfl := Option.some.inj hst
    simp only [Held]
    decide

/-- Byte 0 arrives, is read and arrives again; then byte 1 arrives and cannot be
read: the buffer holds one segment from 0 to 2, and reads look for one at 1. -/
theorem stale_byte_blocks_reading : ∃ tr t,
    Run Transport.step (fun _ e => CarriesParts [10, 20] 0 e) (Transport.new .server 1 1 10 10)
      tr t ∧ ¬ ExactReassembly [10, 20] 0 tr t := by
  have hpart : ∀ off fin data, Segment.IsSlice [10, 20] (off, data) → off + data.length ≤ 2 →
      CarriesParts [10, 20] 0 (.frame (.stream ⟨0, off, fin, data⟩)) :=
    fun _ _ _ h h' _ => ⟨h, h'⟩
  refine ⟨_, _, (((Run.nil.push (.frame (.stream ⟨0, 0, false, [10]⟩)) rfl ?_).push
    (.recv 0 1) rfl trivial).push (.frame (.stream ⟨0, 0, false, [10]⟩)) rfl ?_).push
    (.frame (.stream ⟨0, 1, false, [20]⟩)) rfl ?_, ?_⟩
  · exact hpart 0 false [10] (by simp [Segment.IsSlice]) (by decide)
  · exact hpart 0 false [10] (by simp [Segment.IsSlice]) (by decide)
  · exact hpart 1 false [20] (by simp [Segment.IsSlice]) (by decide)
  · intro hexact
    obtain ⟨data, fin, u, hstep, hle⟩ := hexact.complete 2 1
      (by
        intro i hi
        obtain rfl | rfl : i = 0 ∨ i = 1 := by omega
        · exact ⟨⟨0, 0, false, [10]⟩, .done, by simp, rfl, by decide⟩
        · exact ⟨⟨0, 1, false, [20]⟩, .done, by simp, rfl, by decide⟩)
      (by decide) (by decide)
    obtain ⟨hresponse, -⟩ := Prod.mk.inj (Option.some.inj hstep)
    obtain ⟨rfl, -⟩ := TransportResponse.received.inj hresponse
    revert hle
    decide

end Starfish.Quic
