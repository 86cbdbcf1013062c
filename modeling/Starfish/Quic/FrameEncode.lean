import Starfish.Quic.Packet.Varint

/-!
# Frame encoding

Every frame is a type, encoded as an integer, followed by its fields. Encoding
fails when a field is too large for a variable-length integer.
-/

namespace Starfish.Quic

namespace AckFrame

def laterRanges : Nat → List AckRange → List Nat
  | _, [] => []
  | prevSmallest, range :: rest =>
    (prevSmallest - range.stop - 2) :: (range.stop - range.start) ::
      laterRanges range.start rest

def fields (frame : AckFrame) : List Nat :=
  let frameType := if frame.ecn.isSome then 0x03 else 0x02
  let rangeCount := frame.ranges.length - 1
  let ranges :=
    match frame.ranges with
    | first :: rest =>
      (frame.largestAcknowledged - first.start) :: laterRanges first.start rest
    | [] => [0]
  let ecn :=
    match frame.ecn with
    | some counts => [counts.ect0, counts.ect1, counts.ce]
    | none => []
  [frameType, frame.largestAcknowledged, frame.ackDelay, rangeCount] ++ ranges ++ ecn

def encode (frame : AckFrame) : Except QuicError Bytes := encodeVarints frame.fields

end AckFrame

def CryptoFrame.encode (frame : CryptoFrame) : Except QuicError Bytes := do
  let head ← encodeVarints [0x06, frame.offset, frame.data.length]
  return head ++ frame.data

/-- The OFF and LEN bits are always set. -/
def StreamFrame.encode (frame : StreamFrame) : Except QuicError Bytes := do
  let typeByte := if frame.fin then 0x0f else 0x0e
  let head ← encodeVarints [typeByte, frame.streamId, frame.offset, frame.data.length]
  return head ++ frame.data

def Frame.encode : Frame → Except QuicError Bytes
  | .padding => .ok [0x00]
  | .ping => .ok [0x01]
  | .ack frame => frame.encode
  | .resetStream streamId applicationErrorCode finalSize =>
    encodeVarints [0x04, streamId, applicationErrorCode, finalSize]
  | .stopSending streamId applicationErrorCode =>
    encodeVarints [0x05, streamId, applicationErrorCode]
  | .crypto frame => frame.encode
  | .newToken token => do
      let head ← encodeVarints [0x07, token.length]
      return head ++ token
  | .stream frame => frame.encode
  | .maxData maximumData => encodeVarints [0x10, maximumData]
  | .maxStreamData streamId maximumStreamData =>
    encodeVarints [0x11, streamId, maximumStreamData]
  | .maxStreams bidirectional maximumStreams =>
    encodeVarints [if bidirectional then 0x12 else 0x13, maximumStreams]
  | .dataBlocked maximumData => encodeVarints [0x14, maximumData]
  | .streamDataBlocked streamId maximumStreamData =>
    encodeVarints [0x15, streamId, maximumStreamData]
  | .streamsBlocked bidirectional maximumStreams =>
    encodeVarints [if bidirectional then 0x16 else 0x17, maximumStreams]
  | .newConnectionId sequenceNumber retirePriorTo connectionId statelessResetToken => do
      let head ← encodeVarints [0x18, sequenceNumber, retirePriorTo]
      return head ++ [lowByte connectionId.length] ++ connectionId ++ statelessResetToken
  | .retireConnectionId sequenceNumber => encodeVarints [0x19, sequenceNumber]
  | .pathChallenge data => do
      let head ← encodeVarints [0x1a]
      return head ++ data
  | .pathResponse data => do
      let head ← encodeVarints [0x1b]
      return head ++ data
  | .connectionClose isTransport errorCode frameType reason => do
      let typeField := if isTransport then [frameType.getD 0] else []
      let head ← encodeVarints
        ([if isTransport then 0x1c else 0x1d, errorCode] ++ typeField ++ [reason.length])
      return head ++ reason
  | .handshakeDone => encodeVarints [0x1e]

end Starfish.Quic
