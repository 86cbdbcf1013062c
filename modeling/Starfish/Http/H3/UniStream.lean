import Starfish.Http.H3.FrameCodec

/-!
# Unidirectional streams

The state that client and server keep for a unidirectional stream of the peer, and how bytes
are added to it. Client and server have their own copies of this code: what they share is
written once, with the check of the buffered bytes as a parameter.
-/

namespace Starfish.Http.H3

open Quic (Bytes)

def controlStreamType : Nat := 0x00
def pushStreamType : Nat := 0x01
def maxUniStreamTypeBytes : Nat := 8

/-- The index `mem::discriminant` shows. -/
def H3Frame.discriminant : H3Frame → Nat
  | .data _ => 0
  | .headers _ => 1
  | .cancelPush _ => 2
  | .settings _ => 3
  | .pushPromise .. => 4
  | .goAway _ => 5
  | .maxPushId _ => 6
  | .priorityUpdateRequest .. => 7
  | .priorityUpdatePush .. => 8
  | .unknown .. => 9

def H3Frame.isSettings : H3Frame → Bool
  | .settings _ => true
  | _ => false

/-- DATA, HEADERS and PUSH_PROMISE. -/
def H3Frame.isRequestFrame : H3Frame → Bool
  | .data _ | .headers _ | .pushPromise .. => true
  | _ => false

def frameUnexpected (message : String) : HttpError :=
  .parse s!"H3_FRAME_UNEXPECTED (0x0105): {message}" []

structure UniStream where
  streamType : Option Nat := none
  pending : Bytes := []
  settingsSeen : Bool := false
deriving DecidableEq, Repr

namespace UniStream

/-- `ingest`, with the check of the buffered bytes. -/
def ingest (ensurePendingLimit : UniStream → Except HttpError Unit) (st : UniStream)
    (chunk : Bytes) (fin : Bool) : Outcome HttpError UniStream := do
  let st := { st with pending := st.pending ++ chunk }
  match st.streamType with
  | some _ =>
    Outcome.ofExcept (ensurePendingLimit st)
    return st
  | none =>
    match Quic.decodeVarint st.pending with
    | .ok (streamType, consumed) =>
      let rest ← Outcome.range st.pending consumed st.pending.length
      let st := { st with streamType := some streamType, pending := rest }
      Outcome.ofExcept (ensurePendingLimit st)
      return st
    | .error _ =>
      if fin then .error (.parse "truncated unidirectional stream type" [])
      else if maxUniStreamTypeBytes < st.pending.length then
        .error (.parse
          "H3_EXCESSIVE_LOAD (0x0107): unidirectional stream type exceeded 8 bytes" [])
      else .ok st

/-- A frame of the control stream, after the frames in `s.2`. -/
def controlFrame (s : Bool × List H3Frame) (frame : H3Frame) :
    Except HttpError (Bool × List H3Frame) :=
  if !s.1 && !frame.isSettings then
    .error (.parse
      s!"H3_MISSING_SETTINGS (0x010a): first frame on control stream must be SETTINGS, got Discriminant({frame.discriminant})" [])
  else if s.1 && frame.isSettings then
    .error (frameUnexpected "duplicate SETTINGS frame on control stream")
  else if frame.isRequestFrame then
    .error (.parse "H3_FRAME_UNEXPECTED (0x0105): frame type not allowed on control stream" [])
  else .ok (true, s.2 ++ [frame])

/-- `ingest_control_frames`, with the check of the buffered bytes. A loop that does not end
counts as a panic. -/
def ingestControlFrames (ensurePendingLimit : UniStream → Except HttpError Unit)
    (st : UniStream) (fin : Bool) : Outcome HttpError (UniStream × List H3Frame) := do
  let ((settingsSeen, frames), pending) ←
    (Framing.drain H3Frame.decode controlFrame (st.settingsSeen, []) st.pending).getD .panic
  if fin && !pending.isEmpty then .error (.parse "truncated control stream frame" [])
  else
    let st := { st with settingsSeen := settingsSeen, pending := pending }
    Outcome.ofExcept (ensurePendingLimit st)
    return (st, frames)

end UniStream

/-! ## Client -/

namespace Client

def maxControlStreamPendingBytes : Nat := 64 * 1024
def maxPushStreamPendingBytes : Nat := 1024 * 1024
def maxPushStreamBodyBytes : Nat := 1024 * 1024

structure UniStreamState extends UniStream where
  pushId : Option Nat := none
  pushResponseHeadersBlock : Option Bytes := none
  pushTrailersBlock : Option Bytes := none
  pushBody : Bytes := []
deriving DecidableEq, Repr

def pendingLimit : Option Nat → Option (Nat × String)
  | none => some (maxUniStreamTypeBytes, "untyped")
  | some streamType =>
    if streamType = controlStreamType then some (maxControlStreamPendingBytes, "control")
    else if streamType = pushStreamType then some (maxPushStreamPendingBytes, "push")
    else none

def ensurePendingLimit (st : UniStream) : Except HttpError Unit :=
  match pendingLimit st.streamType with
  | none => .ok ()
  | some (limit, label) =>
    if limit < st.pending.length then
      .error (.parse
        s!"H3_EXCESSIVE_LOAD (0x0107): {label} unidirectional stream buffered {st.pending.length} bytes (limit {limit})" [])
    else .ok ()

namespace UniStreamState

def ingest (st : UniStreamState) (chunk : Bytes) (fin : Bool) :
    Outcome HttpError UniStreamState :=
  (st.toUniStream.ingest ensurePendingLimit chunk fin).map fun s => { st with toUniStream := s }

def ingestControlFrames (st : UniStreamState) (fin : Bool) :
    Outcome HttpError (UniStreamState × List H3Frame) :=
  (st.toUniStream.ingestControlFrames ensurePendingLimit fin).map fun r =>
    ({ st with toUniStream := r.1 }, r.2)

def ingestPushId (st : UniStreamState) (fin : Bool) :
    Outcome HttpError (UniStreamState × Option Nat) :=
  if st.pushId.isSome then .ok (st, st.pushId)
  else
    match Quic.decodeVarint st.pending with
    | .ok (pushId, consumed) => do
        let rest ← Outcome.range st.pending consumed st.pending.length
        return ({ st with pushId := some pushId, pending := rest }, some pushId)
    | .error _ =>
      if fin then .error (.parse "truncated push stream push ID" []) else .ok (st, none)

def ensurePushBodyCapacity (st : UniStreamState) (additional : Nat) : Except HttpError Unit :=
  let total := min usizeMax (st.pushBody.length + additional)
  if maxPushStreamBodyBytes < total then
    .error (.parse
      s!"H3_EXCESSIVE_LOAD (0x0107): push response body buffered {total} bytes (limit {maxPushStreamBodyBytes})" [])
  else .ok ()

def pushFrame (st : UniStreamState) : H3Frame → Except HttpError UniStreamState
  | .headers block =>
    if st.pushResponseHeadersBlock.isNone then
      .ok { st with pushResponseHeadersBlock := some block }
    else if st.pushTrailersBlock.isNone then .ok { st with pushTrailersBlock := some block }
    else .error (frameUnexpected "more than two HEADERS frames on push stream")
  | .data payload =>
    if st.pushResponseHeadersBlock.isNone then
      .error (frameUnexpected "DATA before HEADERS on push stream")
    else if st.pushTrailersBlock.isSome then
      .error (frameUnexpected "DATA after trailers on push stream")
    else do
      st.ensurePushBodyCapacity payload.length
      return { st with pushBody := st.pushBody ++ payload }
  | .unknown .. => .ok st
  | _ => .error (frameUnexpected "invalid frame on push stream")

def ingestPushFrames (st : UniStreamState) (fin : Bool) : Outcome HttpError UniStreamState := do
  let (st, pending) ← (Framing.drain H3Frame.decode pushFrame st st.pending).getD .panic
  if fin && !pending.isEmpty then .error (.parse "truncated push stream frame" [])
  else
    let st := { st with pending := pending }
    Outcome.ofExcept (ensurePendingLimit st.toUniStream)
    return st

end UniStreamState

end Client

/-! ## Server -/

namespace Server

def maxUniStreamPendingBytes : Nat := 64 * 1024

abbrev UniStreamState := UniStream

def ensurePendingLimit (st : UniStream) : Except HttpError Unit :=
  if st.streamType.isSome && decide (maxUniStreamPendingBytes < st.pending.length) then
    .error (.parse
      s!"H3_EXCESSIVE_LOAD (0x0107): peer unidirectional stream buffered more than {maxUniStreamPendingBytes} bytes without a complete frame" [])
  else .ok ()

namespace UniStreamState

def ingest (st : UniStreamState) (chunk : Bytes) (fin : Bool) :
    Outcome HttpError UniStreamState :=
  UniStream.ingest ensurePendingLimit st chunk fin

def ingestControlFrames (st : UniStreamState) (fin : Bool) :
    Outcome HttpError (UniStreamState × List H3Frame) :=
  UniStream.ingestControlFrames ensurePendingLimit st fin

end UniStreamState

end Server

/-! ## The frame loops end -/

theorem drain_getD_ne_panic {σ : Type} (step : σ → H3Frame → Except HttpError σ) (s : σ)
    (buf : Bytes) : (Framing.drain H3Frame.decode step s buf).getD .panic ≠ .panic := by
  obtain ⟨result, hresult, hne⟩ := Framing.drain_ends decode_framed s buf
  rw [hresult]
  exact hne

theorem ingestControlFrames_ne_panic (ensurePendingLimit : UniStream → Except HttpError Unit)
    (st : UniStream) (fin : Bool) : st.ingestControlFrames ensurePendingLimit fin ≠ .panic := by
  intro h
  rcases Outcome.bind_eq_panic.mp h with h | ⟨⟨⟨settingsSeen, frames⟩, pending⟩, -, h⟩
  · exact drain_getD_ne_panic _ _ _ h
  · dsimp only at h
    split at h
    · cases h
    · rcases Outcome.bind_eq_panic.mp h with h | ⟨_, -, h⟩
      · exact Outcome.ofExcept_ne_panic _ h
      · cases h

theorem ingestPushFrames_ne_panic (st : Client.UniStreamState) (fin : Bool) :
    st.ingestPushFrames fin ≠ .panic := by
  intro h
  rcases Outcome.bind_eq_panic.mp h with h | ⟨⟨st, pending⟩, -, h⟩
  · exact drain_getD_ne_panic _ _ _ h
  · dsimp only at h
    split at h
    · cases h
    · rcases Outcome.bind_eq_panic.mp h with h | ⟨_, -, h⟩
      · exact Outcome.ofExcept_ne_panic _ h
      · cases h

/-- The frame codec: lists of frames and single frames are read back, a part of a frame is
left until the rest arrives, and every call of `decode` takes at least one byte and none that
is not there, so that the loops over the frames of a stream end. -/
theorem frames_survive_the_wire :
    (∀ frames : List H3Frame, (∀ frame ∈ frames, frame.Encodable) →
      ∃ bytes, encodeAll frames = .ok bytes ∧
        decodeAllFramesAtEof bytes = some (.ok frames)) ∧
    (∀ frame : H3Frame, frame.Encodable → ∃ bytes, frame.encode = .ok bytes ∧
      (∀ rest, H3Frame.decode (bytes ++ rest) = .ok (some (frame, bytes.length))) ∧
      ∀ part, part <+: bytes → part ≠ bytes → H3Frame.decode part = .ok none) ∧
    (∀ buf, H3Frame.decode buf ≠ .panic ∧ ∀ frame consumed,
      H3Frame.decode buf = .ok (some (frame, consumed)) → 0 < consumed ∧ consumed ≤ buf.length) ∧
    (∀ buf, ∃ result, decodeAllFramesAtEof buf = some result ∧ result ≠ .panic) ∧
    (∀ (st : Client.UniStreamState) (fin : Bool), st.ingestControlFrames fin ≠ .panic ∧
      st.ingestPushFrames fin ≠ .panic) ∧
    ∀ (st : Server.UniStreamState) (fin : Bool),
      Server.UniStreamState.ingestControlFrames st fin ≠ .panic := by
  refine ⟨?_, ?_, ?_, ?_, ?_, ?_⟩
  · intro frames hframes
    obtain ⟨bytes, hbytes⟩ := encodeAll_ok hframes
    exact ⟨bytes, hbytes, decodeAllFrom_encoded hframes hbytes (List.nil_append _).symm
      (Nat.lt_succ_self _) []⟩
  · intro frame hframe
    obtain ⟨bytes, hbytes⟩ := hframe.encode_ok
    exact ⟨bytes, hbytes, decode_encode hframe hbytes, fun part hpart hne =>
      decode_of_isPrefix hframe hbytes hpart hne⟩
  · exact fun buf => ⟨decode_framed.ne_panic buf, fun _ _ => decode_framed.bounds⟩
  · exact fun buf => decodeAllFrom_ends (Nat.lt_succ_self _) []
  · exact fun st fin => ⟨fun h => ingestControlFrames_ne_panic _ _ fin (Outcome.map_eq_panic.mp h),
      ingestPushFrames_ne_panic st fin⟩
  · exact fun st fin => ingestControlFrames_ne_panic _ st fin

/-- A SETTINGS frame and a frame of an unknown type, read back. -/
theorem settings_survive_the_wire :
    ∃ bytes, encodeAll [.settings [⟨1, 0⟩, ⟨7, 100⟩], .unknown 0x21 [1, 2]] = .ok bytes ∧
      decodeAllFramesAtEof bytes =
        some (.ok [.settings [⟨1, 0⟩, ⟨7, 100⟩], .unknown 0x21 [1, 2]]) := by
  refine frames_survive_the_wire.1 _ ?_
  intro frame hframe
  rcases List.mem_pair.mp hframe with rfl | rfl
  · refine ⟨by decide, ?_, by simp⟩
    intro payload hpayload
    cases hpayload
    decide
  · refine ⟨by decide, ?_, ?_⟩
    · intro payload hpayload
      cases hpayload
      decide
    · intro frameType bytes heq
      cases heq
      decide

end Starfish.Http.H3
