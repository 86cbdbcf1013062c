import Starfish.Http.Message
import Starfish.Lib.Framing
import Starfish.Quic.Packet.Varint

/-!
# HTTP/3 frames

Type, length and payload, the first two as variable-length integers (RFC 9114, section 7).
-/

namespace Starfish.Http.H3

open Quic (Bytes QuicError encodeVarint encodeVarints maxVarint)

structure H3Setting where
  id : Nat
  value : Nat
deriving DecidableEq, Repr

inductive H3Frame
  | data (payload : Bytes)
  | headers (block : Bytes)
  | cancelPush (pushId : Nat)
  | settings (list : List H3Setting)
  | pushPromise (pushId : Nat) (block : Bytes)
  | goAway (id : Nat)
  | maxPushId (id : Nat)
  | priorityUpdateRequest (streamId : Nat) (value : Bytes)
  | priorityUpdatePush (pushId : Nat) (value : Bytes)
  | unknown (frameType : Nat) (bytes : Bytes)
deriving DecidableEq, Repr

/-- The format `{:02x}`. -/
def hex2 (n : Nat) : String :=
  String.ofList ((if n < 16 then ['0'] else []) ++ Nat.toDigits 16 n)

def isReservedHttp2SettingId (settingId : Nat) : Bool :=
  settingId ∈ [0x00, 0x02, 0x03, 0x04, 0x05]

def isReservedHttp2FrameType (frameType : Nat) : Bool := frameType ∈ [0x02, 0x06, 0x08, 0x09]

def isDefinedFrameType (frameType : Nat) : Bool :=
  frameType ∈ [0x00, 0x01, 0x03, 0x04, 0x05, 0x07, 0x0d, 0x0f0700, 0x0f0701]

/-! ## Encoding -/

/-- The arms of `H3Frame::encode`: the type, the length of the payload, the payload. -/
def encodeFrame (frameType : Nat) (payload : Except QuicError Bytes) : Except QuicError Bytes := do
  let head ← encodeVarint frameType
  let payload ← payload
  let length ← encodeVarint payload.length
  return head ++ length ++ payload

def idPayload (id : Nat) (rest : Bytes) : Except QuicError Bytes := do
  let id ← encodeVarint id
  return id ++ rest

def settingsPayload (settings : List H3Setting) : Except QuicError Bytes :=
  encodeVarints (settings.flatMap fun s => [s.id, s.value])

namespace H3Frame

def frameType : H3Frame → Nat
  | .data _ => 0x00
  | .headers _ => 0x01
  | .cancelPush _ => 0x03
  | .settings _ => 0x04
  | .pushPromise .. => 0x05
  | .goAway _ => 0x07
  | .maxPushId _ => 0x0d
  | .priorityUpdateRequest .. => 0x0f0700
  | .priorityUpdatePush .. => 0x0f0701
  | .unknown frameType _ => frameType

def payload : H3Frame → Except QuicError Bytes
  | .data payload => .ok payload
  | .headers block => .ok block
  | .cancelPush pushId => idPayload pushId []
  | .settings list => settingsPayload list
  | .pushPromise pushId block => idPayload pushId block
  | .goAway id => idPayload id []
  | .maxPushId id => idPayload id []
  | .priorityUpdateRequest streamId value => idPayload streamId value
  | .priorityUpdatePush pushId value => idPayload pushId value
  | .unknown _ bytes => .ok bytes

def encode (frame : H3Frame) : Except HttpError Bytes :=
  match encodeFrame frame.frameType frame.payload with
  | .ok bytes => .ok bytes
  | .error e => .error (.quic e)

end H3Frame

/-! ## Decoding -/

/-- `decode_varint` of the frame module. -/
def decodeVarint (buf : Bytes) : Option (Nat × Nat) :=
  match Quic.decodeVarint buf with
  | .ok r => some r
  | .error _ => none

def decodeExactVarintPayload (payload : Bytes) (label : String) : Except HttpError Nat :=
  match decodeVarint payload with
  | none => .error (.parse s!"truncated {label}" [])
  | some (value, consumed) =>
    if consumed ≠ payload.length then
      .error (.parse s!"H3_FRAME_ERROR (0x0106): {label} frame has trailing bytes" [])
    else .ok value

/-- The loop over the payload of SETTINGS from position `sp`; `none` if the fuel does not
suffice. -/
def decodeSettings (payload : Bytes) : Nat → Nat → List H3Setting →
    Option (Outcome HttpError (List H3Setting))
  | 0, _, _ => none
  | fuel + 1, sp, settings =>
    if sp < payload.length then
      match (Outcome.range payload sp payload.length : Outcome HttpError Bytes) with
      | .panic => some .panic
      | .error e => some (.error e)
      | .ok rest =>
        match decodeVarint rest with
        | none => some (.error (.parse "truncated SETTINGS id" []))
        | some (id, n) =>
          match (Outcome.range payload (sp + n) payload.length :
              Outcome HttpError Bytes) with
          | .panic => some .panic
          | .error e => some (.error e)
          | .ok rest =>
            match decodeVarint rest with
            | none => some (.error (.parse "truncated SETTINGS value" []))
            | some (value, m) =>
              decodeSettings payload fuel (sp + n + m) (settings ++ [⟨id, value⟩])
    else some (.ok settings)

/-- A payload that starts with an identifier, as PUSH_PROMISE and PRIORITY_UPDATE have it. -/
def decodeIdPayload (payload : Bytes) (label : String) (make : Nat → Bytes → H3Frame) :
    Outcome HttpError H3Frame :=
  match decodeVarint payload with
  | none => .error (.parse s!"truncated {label}" [])
  | some (id, n) => (Outcome.range payload n payload.length).map (make id)

def decodePayload (frameType : Nat) (payload : Bytes) : Outcome HttpError H3Frame :=
  if isReservedHttp2FrameType frameType then
    .error (.parse
      s!"H3_FRAME_UNEXPECTED (0x0105): reserved HTTP/2 frame type 0x{hex2 frameType}" [])
  else if frameType = 0x00 then .ok (.data payload)
  else if frameType = 0x01 then .ok (.headers payload)
  else if frameType = 0x03 then
    (Outcome.ofExcept (decodeExactVarintPayload payload "CANCEL_PUSH")).map .cancelPush
  else if frameType = 0x04 then
    ((decodeSettings payload (payload.length + 1) 0 []).getD .panic).map .settings
  else if frameType = 0x05 then decodeIdPayload payload "PUSH_PROMISE" .pushPromise
  else if frameType = 0x07 then
    (Outcome.ofExcept (decodeExactVarintPayload payload "GOAWAY")).map .goAway
  else if frameType = 0x0d then
    (Outcome.ofExcept (decodeExactVarintPayload payload "MAX_PUSH_ID")).map .maxPushId
  else if frameType = 0x0f0700 then
    decodeIdPayload payload "PRIORITY_UPDATE request" .priorityUpdateRequest
  else if frameType = 0x0f0701 then
    decodeIdPayload payload "PRIORITY_UPDATE push" .priorityUpdatePush
  else .ok (.unknown frameType payload)

/-- Read one frame: the frame and the number of bytes it takes, `none` if it is not complete.
The sums of positions stay within the buffer. -/
def H3Frame.decode (buf : Bytes) : Outcome HttpError (Option (H3Frame × Nat)) :=
  match decodeVarint buf with
  | none => .ok none
  | some (frameType, n) => do
      let rest ← Outcome.range buf n buf.length
      match decodeVarint rest with
      | none => .ok none
      | some (length, m) =>
        if usizeMax < length then
          .error (.parse "HTTP/3 frame length exceeds platform usize" [])
        else
          let pos := n + m
          let available ← Outcome.sub buf.length pos
          if available < length then .ok none
          else
            let payload ← Outcome.range buf pos (pos + length)
            let frame ← decodePayload frameType payload
            return some (frame, pos + length)

/-- The loop of `decode_all_frames_at_eof` from position `pos`; `none` if the fuel does not
suffice. -/
def decodeAllFrom (buf : Bytes) : Nat → Nat → List H3Frame →
    Option (Outcome HttpError (List H3Frame))
  | 0, _, _ => none
  | fuel + 1, pos, frames =>
    if pos < buf.length then
      match (Outcome.range buf pos buf.length).bind H3Frame.decode with
      | .panic => some .panic
      | .error e => some (.error e)
      | .ok (some (frame, consumed)) =>
        decodeAllFrom buf fuel (pos + consumed) (frames ++ [frame])
      | .ok none => some (.error (.parse "truncated HTTP/3 frame at end of stream" []))
    else some (.ok frames)

/-- `decode_all_frames_at_eof`: every frame of a stream that has ended. -/
def decodeAllFramesAtEof (buf : Bytes) : Option (Outcome HttpError (List H3Frame)) :=
  decodeAllFrom buf (buf.length + 1) 0 []

end Starfish.Http.H3
