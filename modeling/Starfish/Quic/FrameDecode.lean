import Starfish.Lib.Items
import Starfish.Quic.Packet.Checked
import Starfish.Quic.FrameEncode

/-!
# Frame decoding

The decoders of RFC 9000, section 19, as computations over the buffer and an offset.
Indices, slices and additions of offsets panic where the code's would.
-/

namespace Starfish.Quic

abbrev FrameReader (α : Type) := Cursor UInt8 QuicError α

/-- The result of a checked operation, or the error that reports its overflow. -/
def orInvalidFrame (x : Option Nat) (message : String) : FrameReader Nat :=
  .lift (match x with
    | some value => .ok value
    | none => .error (.invalidFrame message))

/-! ## ACK -/

def ackRanges : Nat → Nat → FrameReader (List AckRange)
  | 0, _ => return []
  | count + 1, smallest => do
      let gap ← varint
      let ackRange ← varint
      let gapToNextRange ← orInvalidFrame (checkedAdd gap 2) "ACK range gap overflow"
      let stop ← orInvalidFrame (checkedSub smallest gapToNextRange) "ACK range gap underflow"
      let start ← orInvalidFrame (checkedSub stop ackRange) "ACK range underflow"
      let rest ← ackRanges count start
      return ⟨start, stop⟩ :: rest

def ackEcn (hasEcn : Bool) : FrameReader (Option EcnCounts) :=
  if hasEcn then do
    let ect0 ← varint
    let ect1 ← varint
    let ce ← varint
    return some ⟨ect0, ect1, ce⟩
  else return none

def ackFrame (hasEcn : Bool) : FrameReader AckFrame := do
  let largestAck ← varint
  let ackDelay ← varint
  let rangeCount ← varint
  let firstAckRange ← varint
  let firstStart ← orInvalidFrame (checkedSub largestAck firstAckRange) "ACK first range underflow"
  let later ← ackRanges rangeCount firstStart
  let ecn ← ackEcn hasEcn
  return ⟨largestAck, ackDelay, ⟨firstStart, largestAck⟩ :: later, ecn⟩

def decodeAckFrame (hasEcn : Bool) (buf : Bytes) : Outcome QuicError (AckFrame × Nat) :=
  ackFrame hasEcn buf 0

/-! ## CRYPTO and STREAM -/

def cryptoFrame : FrameReader CryptoFrame := do
  let offset ← varint
  let length ← varint
  let data ← .takeBytes length (.invalidFrame "CRYPTO frame data truncated")
  return ⟨offset, data⟩

def decodeCryptoFrame (buf : Bytes) : Outcome QuicError (CryptoFrame × Nat) :=
  cryptoFrame buf 0

def streamOffset (hasOffset : Bool) : FrameReader Nat :=
  if hasOffset then varint else return 0

def streamData (hasLength : Bool) : FrameReader Bytes :=
  if hasLength then do
    let length ← varint
    .takeBytes length (.invalidFrame "STREAM frame data truncated")
  else .rest

def streamFrame (typeByte : UInt8) : FrameReader StreamFrame := do
  let hasOffset := typeByte &&& 0x04 != 0
  let hasLength := typeByte &&& 0x02 != 0
  let fin := typeByte &&& 0x01 != 0
  let streamId ← varint
  let offset ← streamOffset hasOffset
  let data ← streamData hasLength
  return ⟨streamId, offset, fin, data⟩

def decodeStreamFrame (typeByte : UInt8) (buf : Bytes) : Outcome QuicError (StreamFrame × Nat) :=
  streamFrame typeByte buf 0

/-! ## Frames -/

/-- A number as it is printed in messages. -/
def hexNat (n : Nat) : String := "0x" ++ String.ofList (Nat.toDigits 16 n)

def cidAndToken (cidLen : Nat) : FrameReader (Bytes × Bytes) := do
  .ensure (cidLen + 16) (.invalidFrame "NEW_CONNECTION_ID truncated")
  let connectionId ← .bytes cidLen
  let token ← .bytes 16
  return (connectionId, token)

def newConnectionId : FrameReader Frame := do
  let seq ← varint
  let retire ← varint
  let cidLen ← .byte (.invalidFrame "NEW_CONNECTION_ID truncated")
  if 1 ≤ cidLen.toNat ∧ cidLen.toNat ≤ maxCidLen then
    let (connectionId, token) ← cidAndToken cidLen.toNat
    return .newConnectionId seq retire connectionId token
  else .fail (.invalidFrame "NEW_CONNECTION_ID invalid connection ID length")

def closeFrameType (isTransport : Bool) : FrameReader (Option Nat) :=
  if isTransport then do
    let frameType ← varint
    return some frameType
  else return none

def connectionClose (isTransport : Bool) : FrameReader Frame := do
  let errorCode ← varint
  let frameTypeField ← closeFrameType isTransport
  let reasonLen ← varint
  let reason ← .takeBytes reasonLen (.invalidFrame "CONNECTION_CLOSE reason truncated")
  return .connectionClose isTransport errorCode frameTypeField reason

def frameFields (frameType : Nat) : FrameReader Frame :=
  match frameType with
  | 0x01 => return .ping
  | 0x02 => return .ack (← .call (decodeAckFrame false))
  | 0x03 => return .ack (← .call (decodeAckFrame true))
  | 0x04 => return .resetStream (← varint) (← varint) (← varint)
  | 0x05 => return .stopSending (← varint) (← varint)
  | 0x06 => return .crypto (← .call decodeCryptoFrame)
  | 0x07 => do
      let tokenLen ← varint
      return .newToken (← .takeBytes tokenLen (.invalidFrame "NEW_TOKEN truncated"))
  | 0x08 | 0x09 | 0x0a | 0x0b | 0x0c | 0x0d | 0x0e | 0x0f =>
    return .stream (← .call (decodeStreamFrame (UInt8.ofNat frameType)))
  | 0x10 => return .maxData (← varint)
  | 0x11 => return .maxStreamData (← varint) (← varint)
  | 0x12 => return .maxStreams true (← varint)
  | 0x13 => return .maxStreams false (← varint)
  | 0x14 => return .dataBlocked (← varint)
  | 0x15 => return .streamDataBlocked (← varint) (← varint)
  | 0x16 => return .streamsBlocked true (← varint)
  | 0x17 => return .streamsBlocked false (← varint)
  | 0x18 => newConnectionId
  | 0x19 => return .retireConnectionId (← varint)
  | 0x1a => return .pathChallenge (← .takeBytes 8 (.invalidFrame "PATH_CHALLENGE truncated"))
  | 0x1b => return .pathResponse (← .takeBytes 8 (.invalidFrame "PATH_RESPONSE truncated"))
  | 0x1c => connectionClose true
  | 0x1d => connectionClose false
  | 0x1e => return .handshakeDone
  | _ => .fail (.invalidFrame ("unknown frame type: " ++ hexNat frameType))

def typedFrame : FrameReader Frame := do
  let frameType ← varint
  frameFields frameType

def decodeFrame (buf : Bytes) : Outcome QuicError (Frame × Nat) :=
  if buf.isEmpty then .error (.invalidFrame "empty frame data")
  else do
    let first ← Outcome.index buf 0
    if first = 0x00 then return (.padding, 1) else typedFrame buf 0

def frontFrame (buf : Bytes) : Outcome QuicError (Option (Frame × Bytes)) := do
  let (frame, consumed) ← decodeFrame buf
  let rest ← Outcome.range buf consumed buf.length
  return some (frame, rest)

/-- Decode all frames of a payload. No result means that the loop is still going. -/
def decodeFrames (buf : Bytes) : Option (Outcome QuicError (List Frame)) :=
  Items.readAll frontFrame buf

def encodeFrames : List Frame → Except QuicError Bytes
  | [] => .ok []
  | frame :: rest => do
      let head ← frame.encode
      let tail ← encodeFrames rest
      return head ++ tail

end Starfish.Quic
