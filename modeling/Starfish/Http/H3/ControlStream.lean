import Starfish.Http.H3.UniStream

/-!
# The control stream

Bytes of the peer's control stream arrive in chunks. Whether the stream is accepted, and which
frames it delivers, depends on the bytes alone: the state after each chunk is what draining
the bytes so far leaves (`Reached`).
-/

namespace Starfish.Http.H3

open Quic (Bytes)
open Framing

/-! ## The loop over the chunks -/

/-- One round of `poll_control` for the control stream of the peer: the chunk is added, and once
the type of the stream is known its frames are taken. -/
def Client.UniStreamState.receive (st : Client.UniStreamState) (chunk : Bytes) (fin : Bool) :
    Outcome HttpError (Client.UniStreamState × List H3Frame) := do
  let st ← st.ingest chunk fin
  if st.streamType = some controlStreamType then st.ingestControlFrames fin
  else return (st, [])

def Server.UniStreamState.receive (st : Server.UniStreamState) (chunk : Bytes) (fin : Bool) :
    Outcome HttpError (Server.UniStreamState × List H3Frame) := do
  let st ← Server.UniStreamState.ingest st chunk fin
  if st.streamType = some controlStreamType then Server.UniStreamState.ingestControlFrames st fin
  else return (st, [])

/-- The rounds for all chunks. The end of the stream, if it has come, comes with the last one. -/
def receiveAll {σ : Type} (receive : σ → Bytes → Bool → Outcome HttpError (σ × List H3Frame))
    (fin : Bool) : σ → List Bytes → Outcome HttpError (σ × List H3Frame)
  | st, [] => .ok (st, [])
  | st, chunk :: rest => do
      let (st, frames) ← receive st chunk (fin && rest.isEmpty)
      let (st, more) ← receiveAll receive fin st rest
      return (st, frames ++ more)

/-! ## What both sides do -/

def LetsPass (ensurePendingLimit : UniStream → Except HttpError Unit) : Prop :=
  ∀ st : UniStream, st.streamType = some controlStreamType → st.pending.length ≤ 64 * 1024 →
    ensurePendingLimit st = .ok ()

theorem client_letsPass : LetsPass Client.ensurePendingLimit := by
  intro st htype hlength
  rw [Client.ensurePendingLimit, htype]
  exact if_neg (by unfold Client.maxControlStreamPendingBytes; omega)

theorem server_letsPass : LetsPass Server.ensurePendingLimit := by
  intro st htype hlength
  grind [Server.maxUniStreamPendingBytes, Server.ensurePendingLimit]

/-- A round of either side. -/
def UniStream.receive (ensurePendingLimit : UniStream → Except HttpError Unit) (st : UniStream)
    (chunk : Bytes) (fin : Bool) : Outcome HttpError (UniStream × List H3Frame) := do
  let st ← st.ingest ensurePendingLimit chunk fin
  if st.streamType = some controlStreamType then st.ingestControlFrames ensurePendingLimit fin
  else return (st, [])

theorem Client.receive_eq (st : Client.UniStreamState) (chunk : Bytes) (fin : Bool) :
    st.receive chunk fin =
      (st.toUniStream.receive Client.ensurePendingLimit chunk fin).map fun r =>
        ({ st with toUniStream := r.1 }, r.2) := by
  unfold UniStreamState.receive UniStreamState.ingest UniStream.receive
  cases st.toUniStream.ingest Client.ensurePendingLimit chunk fin with
  | panic => rfl
  | error e => rfl
  | ok s =>
    change (if s.streamType = some controlStreamType then _ else _) =
      Outcome.map _ (if s.streamType = some controlStreamType then _ else _)
    split <;> rfl

theorem Client.receiveAll_eq (fin : Bool) (st : Client.UniStreamState) (chunks : List Bytes) :
    receiveAll Client.UniStreamState.receive fin st chunks =
      (receiveAll (UniStream.receive Client.ensurePendingLimit) fin st.toUniStream chunks).map
        fun r => ({ st with toUniStream := r.1 }, r.2) := by
  induction chunks generalizing st with
  | nil => rfl
  | cons chunk rest ih =>
    rw [receiveAll, receiveAll, Client.receive_eq]
    cases st.toUniStream.receive Client.ensurePendingLimit chunk (fin && rest.isEmpty) with
    | panic => rfl
    | error e => rfl
    | ok r =>
      change (receiveAll _ fin ({ st with toUniStream := r.1 } : UniStreamState) rest).bind _ =
        Outcome.map _ ((receiveAll _ fin r.1 rest).bind _)
      rw [ih]
      cases receiveAll (UniStream.receive Client.ensurePendingLimit) fin r.1 rest <;> rfl

/-! ## One round -/

def finish (fin : Bool) (r : (Bool × List H3Frame) × Bytes) :
    Outcome HttpError (UniStream × List H3Frame) :=
  if fin && !r.2.isEmpty then .error (.parse "truncated control stream frame" [])
  else .ok (⟨some controlStreamType, r.2, r.1.1⟩, r.1.2)

def drained (settingsSeen : Bool) (buf : Bytes) :
    Outcome HttpError ((Bool × List H3Frame) × Bytes) :=
  (drain H3Frame.decode UniStream.controlFrame (settingsSeen, []) buf).getD .panic

variable {buf rest front : Bytes} {s t : Bool × List H3Frame} {frame : H3Frame} {seen : Bool}
  {e : HttpError} {frames : List H3Frame}

theorem drained_eq_ok {settingsSeen : Bool} {r : (Bool × List H3Frame) × Bytes} :
    drained settingsSeen buf = .ok r ↔
      drain H3Frame.decode UniStream.controlFrame (settingsSeen, []) buf = some (.ok r) := by
  obtain ⟨result, hresult, -⟩ :=
    @drain_ends _ _ _ _ _ UniStream.controlFrame decode_framed (settingsSeen, []) buf
  simp [drained, hresult]

section Round

variable {ensurePendingLimit : UniStream → Except HttpError Unit}
  (hlimit : LetsPass ensurePendingLimit) {st : UniStream} {chunk : Bytes}
include hlimit

theorem ingestControlFrames_eq (htype : st.streamType = some controlStreamType)
    (hlength : st.pending.length ≤ 64 * 1024) (fin : Bool) :
    st.ingestControlFrames ensurePendingLimit fin =
      (drained st.settingsSeen st.pending).bind (finish fin) := by
  change (drained st.settingsSeen st.pending).bind _ = _
  cases hdrained : drained st.settingsSeen st.pending with
  | panic => rfl
  | error e => rfl
  | ok r =>
    have hrest := (drain_rest decode_framed (drained_eq_ok.mp hdrained)).2
    simp only [Outcome.bind, finish]
    split
    · rfl
    · rw [htype, hlimit ⟨some controlStreamType, r.2, r.1.1⟩ rfl (Nat.le_trans hrest hlength)]
      rfl

theorem receive_typed (htype : st.streamType = some controlStreamType)
    (hlength : st.pending.length + chunk.length ≤ 64 * 1024) (fin : Bool) :
    st.receive ensurePendingLimit chunk fin =
      (drained st.settingsSeen (st.pending ++ chunk)).bind (finish fin) := by
  have hpending : (st.pending ++ chunk).length ≤ 64 * 1024 := by
    rw [List.length_append]
    exact hlength
  have hingest : st.ingest ensurePendingLimit chunk fin =
      .ok { st with pending := st.pending ++ chunk } := by
    simp only [UniStream.ingest, htype]
    rw [hlimit _ rfl hpending]
    rfl
  rw [UniStream.receive, hingest, Outcome.ok_bind, if_pos htype]
  grind [ingestControlFrames_eq]

theorem receive_type (htype : st.streamType = none) {n : Nat}
    (hdecode : Quic.decodeVarint (st.pending ++ chunk) = .ok (controlStreamType, n))
    (hlength : st.pending.length + chunk.length ≤ 64 * 1024) (fin : Bool) :
    st.receive ensurePendingLimit chunk fin =
      (drained st.settingsSeen ((st.pending ++ chunk).drop n)).bind (finish fin) := by
  have hpending : ((st.pending ++ chunk).drop n).length ≤ 64 * 1024 := by
    rw [List.length_drop, List.length_append]
    omega
  have hingest : st.ingest ensurePendingLimit chunk fin =
      .ok { st with
        streamType := some controlStreamType, pending := (st.pending ++ chunk).drop n } := by
    simp only [UniStream.ingest, htype, hdecode]
    rw [Outcome.range_to_end (Quic.decodeVarint_le hdecode), Outcome.ok_bind,
      hlimit _ rfl hpending]
    rfl
  rw [UniStream.receive, hingest, Outcome.ok_bind, if_pos rfl]
  exact ingestControlFrames_eq hlimit rfl hpending fin

end Round

theorem receive_partType {st : UniStream} {chunk : Bytes} {e : Quic.QuicError}
    (ensurePendingLimit : UniStream → Except HttpError Unit) (htype : st.streamType = none)
    (hdecode : Quic.decodeVarint (st.pending ++ chunk) = .error e) (fin : Bool) :
    st.receive ensurePendingLimit chunk fin =
      if fin then .error (.parse "truncated unidirectional stream type" [])
      else .ok ({ st with pending := st.pending ++ chunk }, []) := by
  have hlength := Quic.length_lt_of_decodeVarint hdecode
  cases fin with
  | true => simp [UniStream.receive, UniStream.ingest, htype, hdecode]
  | false =>
    have hmax : ¬ maxUniStreamTypeBytes < (st.pending ++ chunk).length := by
      unfold maxUniStreamTypeBytes
      omega
    simp only [UniStream.receive, UniStream.ingest, htype, hdecode,
      if_neg hmax]
    rfl

/-! ## Frames that are let through -/

/-- The frames a control stream may carry after a part that has (`true`) or has not brought
SETTINGS. -/
def AllowedFrom : Bool → List H3Frame → Prop
  | _, [] => True
  | settingsSeen, frame :: frames =>
    frame.isSettings = !settingsSeen ∧ frame.isRequestFrame = false ∧ AllowedFrom true frames

theorem controlFrame_eq_ok : UniStream.controlFrame s frame = .ok t ↔
      frame.isSettings = (!s.1) ∧ frame.isRequestFrame = false ∧ t = (true, s.2 ++ [frame]) := by
  unfold UniStream.controlFrame
  grind

theorem controlFrame_error
    (h : UniStream.controlFrame (seen, []) frame = .error e) (acc : List H3Frame) :
    UniStream.controlFrame (seen, acc) frame = .error e := by
  grind [UniStream.controlFrame]

theorem foldlM_controlFrame : frames.foldlM UniStream.controlFrame s = .ok t ↔
      AllowedFrom s.1 frames ∧ t = (s.1 || !frames.isEmpty, s.2 ++ frames) := by
  induction frames generalizing s with
  | nil =>
    simp [AllowedFrom, pure, Except.pure, eq_comm]
  | cons frame frames ih =>
    rw [List.foldlM_cons]
    cases hframe : UniStream.controlFrame s frame with
    | error e =>
      have hnot : ¬ (frame.isSettings = (!s.1) ∧ frame.isRequestFrame = false) := by
        rintro ⟨hsettings, hrequest⟩
        rw [controlFrame_eq_ok.mpr ⟨hsettings, hrequest, rfl⟩] at hframe
        cases hframe
      constructor
      · intro h
        cases h
      · rintro ⟨⟨hsettings, hrequest, -⟩, -⟩
        exact absurd ⟨hsettings, hrequest⟩ hnot
    | ok s' =>
      obtain ⟨hsettings, hrequest, rfl⟩ := controlFrame_eq_ok.mp hframe
      change frames.foldlM UniStream.controlFrame (true, s.2 ++ [frame]) = .ok t ↔ _
      rw [ih]
      simp [AllowedFrom, hsettings, hrequest]

theorem drain_controlFrame (seen : Bool) (acc : List H3Frame) (buf : Bytes) :
    drain H3Frame.decode UniStream.controlFrame (seen, acc) buf =
      (drain H3Frame.decode UniStream.controlFrame (seen, []) buf).map
        (Outcome.map fun r => ((r.1.1, acc ++ r.1.2), r.2)) := by
  induction buf using frames_induction decode_framed generalizing seen acc with
  | incomplete buf hdecode => simp [drain_of_none hdecode, Outcome.map]
  | failed buf e hdecode => simp [drain_of_error hdecode, Outcome.map]
  | frame buf frame consumed hdecode ih =>
    rw [drain_of_some decode_framed hdecode, drain_of_some decode_framed hdecode]
    cases hframe : UniStream.controlFrame (seen, []) frame with
    | error e =>
      rw [controlFrame_error hframe acc]
      rfl
    | ok t =>
      obtain ⟨hsettings, hrequest, rfl⟩ := controlFrame_eq_ok.mp hframe
      have hacc : UniStream.controlFrame (seen, acc) frame = .ok (true, acc ++ [frame]) :=
        controlFrame_eq_ok.mpr ⟨hsettings, hrequest, rfl⟩
      rw [hacc]
      simp only [List.nil_append]
      rw [ih true (acc ++ [frame]), ih true [frame], Option.map_map]
      congr 1
      funext x
      cases x <;> simp [Outcome.map]

theorem drained_append (h : drained false buf = .ok ((seen, frames), rest)) (more : Bytes) :
    drained false (buf ++ more) =
      (drained seen (rest ++ more)).map fun r => ((r.1.1, frames ++ r.1.2), r.2) := by
  rw [drained, drain_append decode_framed, drained_eq_ok.mp h]
  dsimp only
  rw [drain_controlFrame]
  unfold drained
  cases drain H3Frame.decode UniStream.controlFrame (seen, []) (rest ++ more) <;> rfl

theorem drained_append_of_error (h : drained false buf = .error e)
    (more : Bytes) : drained false (buf ++ more) = .error e := by
  grind [drained, drain_append, decode_framed]

theorem drained_ne_panic (seen : Bool) (buf : Bytes) : drained seen buf ≠ .panic :=
  drain_getD_ne_panic _ _ _

/-! ## Sizes -/

/-- Every frame of the stream, complete or not, takes at most 60 KiB. -/
def SmallFrames (body : Bytes) : Prop :=
  ∀ front frames rest frameType pos length, Frames H3Frame.decode front frames →
    body = front ++ rest → frameHeader rest = some (frameType, pos, length) →
    pos + length ≤ 60 * 1024

theorem length_lt_of_frameHeader (h : frameHeader buf = none) : buf.length < 16 := by
  unfold frameHeader at h
  cases htype : Quic.decodeVarint buf with
  | error e =>
    have := Quic.length_lt_of_decodeVarint htype
    omega
  | ok r =>
    have hn := Quic.decodeVarint_len htype
    rw [decodeVarint_eq_some.mpr htype] at h
    cases hlength : Quic.decodeVarint (buf.drop r.2) with
    | error e =>
      grind [Quic.length_lt_of_decodeVarint, List.length_drop]
    | ok q => simp [decodeVarint_eq_some.mpr hlength] at h

theorem SmallFrames.rest_lt {body more : Bytes} (h : SmallFrames body) (hbody : body = buf ++ more)
    (hdrained : drained false buf = .ok (t, rest)) : rest.length < 60 * 1024 := by
  obtain ⟨front, frames, hframes, hbuf, hrest, -⟩ :=
    (drain_eq_ok_iff decode_framed decode_local).mp (drained_eq_ok.mp hdrained)
  rw [decode_eq] at hrest
  cases hheader : frameHeader rest with
  | none =>
    have := length_lt_of_frameHeader hheader
    omega
  | some header =>
    obtain ⟨frameType, pos, length⟩ := header
    have hsize := h front frames (rest ++ more) frameType pos length hframes
      (by rw [hbody, hbuf, List.append_assoc]) (frameHeader_append hheader more)
    simp only [hheader] at hrest
    split at hrest
    · omega
    · obtain ⟨_, -, heq⟩ := Outcome.map_eq_ok.mp hrest
      cases heq

/-! ## All chunks -/

/-- The state after the bytes `sofar`, in one piece, and the frames they delivered. -/
def stateAfter (fin : Bool) (sofar : Bytes) : Outcome HttpError (UniStream × List H3Frame) :=
  match Quic.decodeVarint sofar with
  | .error _ =>
    if fin then .error (.parse "truncated unidirectional stream type" [])
    else .ok (⟨none, sofar, false⟩, [])
  | .ok (_, n) => (drained false (sofar.drop n)).bind (finish fin)

def deliver (frames : List H3Frame) (x : Outcome HttpError (UniStream × List H3Frame)) :
    Outcome HttpError (UniStream × List H3Frame) :=
  x.map fun r => (r.1, frames ++ r.2)

theorem map_finish (fin : Bool) (frames : List H3Frame)
    (x : Outcome HttpError ((Bool × List H3Frame) × Bytes)) :
    deliver frames (x.bind (finish fin)) =
      (x.map fun r => ((r.1.1, frames ++ r.1.2), r.2)).bind (finish fin) := by
  cases x with
  | panic => rfl
  | error e => rfl
  | ok r =>
    simp only [Outcome.bind, Outcome.map, finish]
    split <;> rfl

section Stream

variable {ensurePendingLimit : UniStream → Except HttpError Unit}
  (hlimit : LetsPass ensurePendingLimit) {typeBytes body : Bytes}
  (htype : Quic.decodeVarint typeBytes = .ok (controlStreamType, typeBytes.length))
  (hsmall : SmallFrames body)

variable {sofar more : Bytes} {frames : List H3Frame} {chunks : List Bytes}

include htype in
theorem decodeVarint_part (hsofar : typeBytes ++ body = sofar ++ more)
    {r : Nat × Nat} (h : Quic.decodeVarint sofar = .ok r) :
    r = (controlStreamType, typeBytes.length) ∧ sofar = typeBytes ++ sofar.drop typeBytes.length := by
  have hwhole := Quic.decodeVarint_append h more
  rw [← hsofar, Quic.decodeVarint_append htype body] at hwhole
  cases hwhole
  have hle := Quic.decodeVarint_le h
  refine ⟨rfl, ?_⟩
  have htake : sofar.take typeBytes.length = typeBytes := by
    rw [← List.take_append_of_le_length hle, ← hsofar, List.take_left]
  conv_lhs => rw [← List.take_append_drop typeBytes.length sofar, htake]

include htype hsmall in
theorem pending_lt (hsofar : typeBytes ++ body = sofar ++ more)
    {st : UniStream} (h : stateAfter false sofar = .ok (st, frames)) :
    st.pending.length < 60 * 1024 := by
  unfold stateAfter at h
  cases hdecode : Quic.decodeVarint sofar with
  | error e =>
    simp only [hdecode, Bool.false_eq_true, if_false] at h
    grind [Quic.length_lt_of_decodeVarint]
  | ok r =>
    obtain ⟨rfl, hpart⟩ := decodeVarint_part htype hsofar hdecode
    simp only [hdecode] at h
    obtain ⟨q, hdrained, hfinish⟩ := Outcome.bind_eq_ok.mp h
    cases hfinish
    refine @SmallFrames.rest_lt _ _ _ body more hsmall ?_ hdrained
    rw [hpart, List.append_assoc] at hsofar
    exact List.append_cancel_left hsofar

include hlimit htype hsmall in
theorem receive_stateAfter {chunk : Bytes}
    (hsofar : typeBytes ++ body = sofar ++ (chunk ++ more)) (hchunk : chunk.length ≤ 4096)
    {st : UniStream} (h : stateAfter false sofar = .ok (st, frames)) (fin : Bool) :
    deliver frames (st.receive ensurePendingLimit chunk fin) = stateAfter fin (sofar ++ chunk) := by
  have hlt := pending_lt htype hsmall hsofar h
  have hroom : st.pending.length + chunk.length ≤ 64 * 1024 := by omega
  have hnext : typeBytes ++ body = (sofar ++ chunk) ++ more := by rw [hsofar, List.append_assoc]
  unfold stateAfter at h
  cases hdecode : Quic.decodeVarint sofar with
  | error e =>
    simp only [hdecode, Bool.false_eq_true, if_false] at h
    cases h
    cases hdecode' : Quic.decodeVarint (sofar ++ chunk) with
    | error e =>
      rw [receive_partType ensurePendingLimit rfl hdecode', stateAfter, hdecode']
      cases fin <;> rfl
    | ok r =>
      obtain ⟨rfl, -⟩ := decodeVarint_part htype hnext hdecode'
      rw [receive_type hlimit rfl hdecode' hroom, stateAfter, hdecode', map_finish]
      dsimp only
      cases drained false ((sofar ++ chunk).drop typeBytes.length) <;> rfl
  | ok r =>
    obtain ⟨rfl, hpart⟩ := decodeVarint_part htype hsofar hdecode
    simp only [hdecode] at h
    obtain ⟨⟨⟨seen, frames'⟩, rest⟩, hdrained, hfinish⟩ := Outcome.bind_eq_ok.mp h
    cases hfinish
    rw [receive_typed hlimit rfl hroom, stateAfter, Quic.decodeVarint_append hdecode, map_finish]
    simp only
    rw [List.drop_append_of_le_length (Quic.decodeVarint_le hdecode), drained_append hdrained]

theorem stateAfter_error (h : stateAfter false sofar = .error e)
    (fin : Bool) (more : Bytes) : stateAfter fin (sofar ++ more) = .error e := by
  unfold stateAfter at h
  cases hdecode : Quic.decodeVarint sofar with
  | error e => simp [hdecode] at h
  | ok r =>
    simp only [hdecode] at h
    cases hdrained : drained false (sofar.drop r.2) with
    | panic => exact absurd hdrained (drained_ne_panic _ _)
    | ok q => simp [hdrained, Outcome.bind, finish] at h
    | error e' =>
      rw [hdrained] at h
      cases h
      rw [stateAfter, Quic.decodeVarint_append hdecode]
      simp only
      rw [List.drop_append_of_le_length (Quic.decodeVarint_le hdecode),
        drained_append_of_error hdrained]
      rfl

theorem stateAfter_ne_panic (fin : Bool) (sofar : Bytes) : stateAfter fin sofar ≠ .panic := by
  unfold stateAfter
  split
  · split <;> simp
  · intro h
    rcases Outcome.bind_eq_panic.mp h with h | ⟨r, -, h⟩
    all_goals grind [drained_ne_panic, finish]

include hlimit htype hsmall in
theorem receiveAll_stateAfter (hchunks : ∀ chunk ∈ chunks, chunk.length ≤ 4096)
    (hsofar : typeBytes ++ body = sofar ++ (chunks.flatten ++ more))
    {st : UniStream} (h : stateAfter false sofar = .ok (st, frames)) (fin : Bool) :
    deliver frames (receiveAll (UniStream.receive ensurePendingLimit) fin st chunks) =
      stateAfter (fin && !chunks.isEmpty) (sofar ++ chunks.flatten) := by
  induction chunks generalizing sofar st frames with
  | nil =>
    rw [List.flatten_nil, List.append_nil, List.isEmpty_nil, Bool.not_true, Bool.and_false, h]
    simp [receiveAll, deliver, Outcome.map]
  | cons chunk rest ih =>
    rw [List.flatten_cons, List.append_assoc] at hsofar
    have hround := receive_stateAfter hlimit htype hsmall hsofar
      (hchunks chunk List.mem_cons_self) h (fin && rest.isEmpty)
    have hrest := fun c hc => hchunks c (List.mem_cons_of_mem chunk hc)
    rw [receiveAll, List.flatten_cons, ← List.append_assoc]
    cases hreceive : st.receive ensurePendingLimit chunk (fin && rest.isEmpty) with
    | panic =>
      rw [hreceive] at hround
      exact absurd hround.symm (stateAfter_ne_panic _ _)
    | error e =>
      rw [hreceive] at hround
      cases rest with
      | nil => simpa using hround
      | cons next rest =>
        simp only [List.isEmpty_cons, Bool.and_false] at hround
        exact (stateAfter_error hround.symm _ _).symm
    | ok r =>
      obtain ⟨st', new⟩ := r
      rw [hreceive] at hround
      cases rest with
      | nil =>
        simp only [List.isEmpty_nil, List.isEmpty_cons, Bool.and_true, Bool.not_false,
          List.flatten_nil, List.append_nil] at hround ⊢
        rw [← hround]
        simp only [receiveAll, Outcome.ok_bind, List.append_nil]
        rfl
      | cons next rest =>
        simp only [List.isEmpty_cons, Bool.and_false] at hround
        have hrec := ih hrest (by rw [hsofar, List.append_assoc]) hround.symm
        rw [List.isEmpty_cons] at hrec ⊢
        rw [← hrec]
        change deliver frames ((receiveAll _ fin st' (next :: rest)).bind fun q =>
          .ok (q.1, new ++ q.2)) = deliver (frames ++ new) (receiveAll _ fin st' (next :: rest))
        cases receiveAll (UniStream.receive ensurePendingLimit) fin st' (next :: rest) with
        | panic => rfl
        | error e => rfl
        | ok q => simp [deliver, Outcome.map, Outcome.bind]

include hlimit htype hsmall in
theorem receiveAll_eq (hchunks : ∀ chunk ∈ chunks, chunk.length ≤ 4096)
    (hflat : typeBytes ++ body = chunks.flatten ++ more) (fin : Bool) :
    receiveAll (UniStream.receive ensurePendingLimit) fin {} chunks =
      stateAfter (fin && !chunks.isEmpty) chunks.flatten := by
  have h := receiveAll_stateAfter hlimit htype hsmall hchunks (show _ = [] ++ _ from hflat)
    (show stateAfter false [] = .ok ({}, []) from rfl) fin
  rw [List.nil_append] at h
  rw [← h]
  cases receiveAll (UniStream.receive ensurePendingLimit) fin {} chunks <;> rfl

end Stream

/-! ## The law -/

/-- The frames that a control stream may bring: SETTINGS first and only there, no DATA, HEADERS
or PUSH_PROMISE and no type that HTTP/2 used. -/
structure Allowed (frames : List H3Frame) : Prop where
  first : ∀ frame, frames.head? = some frame → frame.isSettings = true
  others : ∀ frame ∈ frames.tail, frame.isSettings = false
  control : ∀ frame ∈ frames, frame.isRequestFrame = false
  defined : ∀ frame ∈ frames, isReservedHttp2FrameType frame.frameType = false

/-- The stream is a sequence of complete frames, of which the last may be missing its end as long
as the stream is open. -/
def Accepts (body : Bytes) (fin : Bool) (frames : List H3Frame) : Prop :=
  ∃ front rest, body = front ++ rest ∧ Frames H3Frame.decode front frames ∧
    H3Frame.decode rest = .ok none ∧ (fin = true → rest = []) ∧ Allowed frames

theorem decodePayload_frameType {frameType : Nat} {payload : Bytes}
    (h : decodePayload frameType payload = .ok frame) :
    frame.frameType = frameType ∧ isReservedHttp2FrameType frameType = false := by
  have hid : ∀ {label : String} {make : Nat → Bytes → H3Frame},
      decodeIdPayload payload label make = .ok frame → ∃ id rest, frame = make id rest := by
    intro label make hok
    cases hid : decodeVarint payload with
    | none => simp [decodeIdPayload, hid] at hok
    | some r =>
      rw [decodeIdPayload_eq hid] at hok
      cases hok
      exact ⟨_, _, rfl⟩
  unfold decodePayload at h
  split at h
  · cases h
  · next hreserved =>
    refine ⟨?_, by simpa using hreserved⟩
    repeat' split at h
    all_goals first
      | (cases h; simp only [H3Frame.frameType, *])
      | (obtain ⟨_, -, rfl⟩ := Outcome.map_eq_ok.mp h; simp only [H3Frame.frameType, *])
      | (obtain ⟨_, _, rfl⟩ := hid h; simp only [H3Frame.frameType, *])

theorem Frames.defined (h : Frames H3Frame.decode front frames) :
    ∀ frame ∈ frames, isReservedHttp2FrameType frame.frameType = false := by
  induction h with
  | nil => simp
  | cons hdecode _ ih =>
    obtain ⟨_, _, _, -, -, -, hpayload⟩ := decode_eq_some.mp hdecode
    obtain ⟨htype, hdefined⟩ := decodePayload_frameType hpayload
    grind

theorem allowedFrom_true : AllowedFrom true frames ↔
      ∀ frame ∈ frames, frame.isSettings = false ∧ frame.isRequestFrame = false := by
  induction frames with
  | nil => simp [AllowedFrom]
  | cons frame frames ih => simp [AllowedFrom, ih, and_assoc]

theorem allowedFrom_iff
    (hframes : Frames H3Frame.decode front frames) : AllowedFrom false frames ↔ Allowed frames := by
  have hdefined := Frames.defined hframes
  cases frames with
  | nil => exact ⟨fun _ => ⟨by simp, by simp, by simp, by simp⟩, fun _ => trivial⟩
  | cons frame frames =>
    simp only [AllowedFrom, allowedFrom_true]
    constructor
    · rintro ⟨hsettings, hrequest, hrest⟩
      exact ⟨by simpa using hsettings, fun f hf => (hrest f hf).1,
        List.forall_mem_cons.mpr ⟨hrequest, fun f hf => (hrest f hf).2⟩, hdefined⟩
    · intro h
      grind [cases Allowed]

theorem stateAfter_eq_ok {typeBytes body : Bytes}
    (htype : Quic.decodeVarint typeBytes = .ok (controlStreamType, typeBytes.length)) {fin : Bool} :
    (∃ st, stateAfter fin (typeBytes ++ body) = .ok (st, frames)) ↔ Accepts body fin frames := by
  rw [stateAfter, Quic.decodeVarint_append htype]
  simp only [List.drop_left, Outcome.bind_eq_ok, drained_eq_ok]
  constructor
  · rintro ⟨st, ⟨⟨seen, fs⟩, rest⟩, hdrain, hfinish⟩
    obtain ⟨front, frames', hframes, hbody, hrest, hfold⟩ :=
      (drain_eq_ok_iff decode_framed decode_local).mp hdrain
    obtain ⟨hallowed, heq⟩ := foldlM_controlFrame.mp hfold
    obtain ⟨-, rfl⟩ := heq
    unfold finish at hfinish
    split at hfinish
    · cases hfinish
    · next hfin =>
      cases hfinish
      refine ⟨front, rest, hbody, hframes, hrest, ?_, (allowedFrom_iff hframes).mp hallowed⟩
      intro hend
      simpa [hend] using hfin
  · rintro ⟨front, rest, hbody, hframes, hrest, hfin, hallowed⟩
    have hfold := foldlM_controlFrame.mpr
      ⟨(show AllowedFrom (false, ([] : List H3Frame)).1 frames from
        (allowedFrom_iff hframes).mpr hallowed), rfl⟩
    refine ⟨⟨some controlStreamType, rest, !frames.isEmpty⟩, _,
      (drain_eq_ok_iff decode_framed decode_local).mpr
        ⟨front, frames, hframes, hbody, hrest, hfold⟩, ?_⟩
    rw [finish, if_neg]
    all_goals grind

theorem smallFrames_settings : SmallFrames [4, 0] := by
  intro front frames rest frameType pos length _ hbody hheader
  have hrest : rest = ([4, 0] : Bytes).drop front.length := by rw [hbody, List.drop_left]
  have hle : front.length ≤ 2 := by
    have := congrArg List.length hbody
    simp at this
    omega
  rw [hrest] at hheader
  generalize front.length = n at hheader hle
  match n with
  | 0 =>
    cases hheader
    decide
  | 1 => cases hheader
  | 2 => cases hheader
  | n + 3 => omega

end Starfish.Http.H3
