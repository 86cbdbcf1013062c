import Starfish.Lib.Loop
import Starfish.Quic.Packet.Checked

/-!
# Transport parameters

The parameters that the endpoints exchange in the TLS handshake (RFC 9000, section 18):
identifier, length and value of each, where a value equal to the default is left out. The
encoder adds one parameter with an identifier that peers have to ignore.
-/

namespace Starfish.Quic

/-! ## Parameters -/

@[match_pattern] abbrev tpOriginalDestinationConnectionId : Nat := 0x00
@[match_pattern] abbrev tpMaxIdleTimeout : Nat := 0x01
@[match_pattern] abbrev tpStatelessResetToken : Nat := 0x02
@[match_pattern] abbrev tpMaxUdpPayloadSize : Nat := 0x03
@[match_pattern] abbrev tpInitialMaxData : Nat := 0x04
@[match_pattern] abbrev tpInitialMaxStreamDataBidiLocal : Nat := 0x05
@[match_pattern] abbrev tpInitialMaxStreamDataBidiRemote : Nat := 0x06
@[match_pattern] abbrev tpInitialMaxStreamDataUni : Nat := 0x07
@[match_pattern] abbrev tpInitialMaxStreamsBidi : Nat := 0x08
@[match_pattern] abbrev tpInitialMaxStreamsUni : Nat := 0x09
@[match_pattern] abbrev tpAckDelayExponent : Nat := 0x0a
@[match_pattern] abbrev tpMaxAckDelay : Nat := 0x0b
@[match_pattern] abbrev tpDisableActiveMigration : Nat := 0x0c
@[match_pattern] abbrev tpPreferredAddress : Nat := 0x0d
@[match_pattern] abbrev tpActiveConnectionIdLimit : Nat := 0x0e
@[match_pattern] abbrev tpInitialSourceConnectionId : Nat := 0x0f
@[match_pattern] abbrev tpRetrySourceConnectionId : Nat := 0x10

def defaultMaxUdpPayloadSize : Nat := 65527
def minMaxUdpPayloadSize : Nat := 1200
def defaultMaxAckDelayMs : Nat := 25
def maxMaxAckDelayMs : Nat := 1 <<< 14
def maxAckDelayExponent : Nat := 20

structure ResetToken where
  bytes : Bytes
  length_eq : bytes.length = 16
deriving DecidableEq

/-- The parameters with their defaults. What an endpoint sends and what it has read from its peer
have the same fields. -/
structure TransportParameters where
  originalDestinationConnectionId : Option ConnectionId := none
  maxIdleTimeoutMs : Nat := 0
  statelessResetToken : Option ResetToken := none
  maxUdpPayloadSize : Nat := defaultMaxUdpPayloadSize
  initialMaxData : Nat := 0
  initialMaxStreamDataBidiLocal : Nat := 0
  initialMaxStreamDataBidiRemote : Nat := 0
  initialMaxStreamDataUni : Nat := 0
  initialMaxStreamsBidi : Nat := 0
  initialMaxStreamsUni : Nat := 0
  ackDelayExponent : Nat := 3
  maxAckDelayMs : Nat := defaultMaxAckDelayMs
  disableActiveMigration : Bool := false
  preferredAddress : Option Bytes := none
  activeConnectionIdLimit : Nat := 2
  initialSourceConnectionId : Option ConnectionId := none
  retrySourceConnectionId : Option ConnectionId := none
deriving DecidableEq

abbrev LocalTransportParameters := TransportParameters

abbrev PeerTransportParameters := TransportParameters

def transportParameterError (message : String) : QuicError :=
  .transport .transportParameterError message

/-- Addresses, connection ID and token: the ID's length is at a fixed place, and the whole has to
have the length that follows from it. -/
def validatePreferredAddress (value : Bytes) : Outcome QuicError Unit :=
  if value.length < 41 then
    .error (transportParameterError "preferred_address is too short to contain the fixed fields")
  else do
    let cidLen ← Outcome.index value 24
    if maxCidLen < cidLen.toNat then
      .error (transportParameterError "preferred_address connection ID exceeds maximum length")
    else
      let expectedLen ← Outcome.add 41 cidLen.toNat
      if value.length ≠ expectedLen then
        .error (transportParameterError
          "preferred_address length does not match its encoded connection ID length")
      else .ok ()

/-! ## Encoding -/

/-- How many bytes the encoding of an integer has. -/
def varintLen (value : Nat) : Nat :=
  if value < 0x40 then 1
  else if value < 0x4000 then 2
  else if value < 0x40000000 then 4
  else 8

def encodeTransportParam (id value : Nat) : Outcome QuicError Bytes :=
  .ofExcept (encodeVarints [id, varintLen value, value])

def encodeTransportBytesParam (id : Nat) (value : Bytes) : Outcome QuicError Bytes := do
  let head ← Outcome.ofExcept (encodeVarints [id, value.length])
  return head ++ value

def greaseBytes : Nat → BitVec 64 → Bytes
  | 0, _ => []
  | n + 1, x => UInt8.ofNat (x.toNat % 256) :: greaseBytes n (x.rotateLeft 9 ^^^ 0x9e3779b97f4a7c15#64)

/-- Identifier and value of the parameter to be ignored, and the counter after the call. The
additions to the counter wrap around. -/
def nextGreaseTransportParameter (counter : Nat) : (Nat × Bytes) × Nat :=
  let seed := (counter + 1) % 2 ^ 64
  let id := 31 * (seed % 128 + 1) + 27
  let valueLen := (seed >>> 8) % 8 + 1
  ((id, greaseBytes valueLen (BitVec.ofNat 64 seed ^^^ 0xfaceb00c1337aa55#64)), seed)

/-- Append the outputs of several encoders; the first error ends the encoding. -/
def concatAll : List (Outcome QuicError Bytes) → Outcome QuicError Bytes
  | [] => .ok []
  | piece :: rest => do
      let head ← piece
      let tail ← concatAll rest
      return head ++ tail

def onlyIf (condition : Bool) (piece : Outcome QuicError Bytes) : Outcome QuicError Bytes :=
  if condition then piece else .ok []

def forSome {α : Type} (value : Option α) (piece : α → Outcome QuicError Bytes) :
    Outcome QuicError Bytes :=
  match value with
  | some a => piece a
  | none => .ok []

def encodeTransportParameters (params : LocalTransportParameters) (counter : Nat) :
    Outcome QuicError Bytes :=
  let grease := (nextGreaseTransportParameter counter).1
  concatAll [
    forSome params.originalDestinationConnectionId fun cid =>
      encodeTransportBytesParam tpOriginalDestinationConnectionId cid.bytes,
    onlyIf (0 < params.maxIdleTimeoutMs)
      (encodeTransportParam tpMaxIdleTimeout params.maxIdleTimeoutMs),
    forSome params.statelessResetToken fun token =>
      encodeTransportBytesParam tpStatelessResetToken token.bytes,
    onlyIf (params.maxUdpPayloadSize != defaultMaxUdpPayloadSize)
      (encodeTransportParam tpMaxUdpPayloadSize params.maxUdpPayloadSize),
    encodeTransportParam tpInitialMaxData params.initialMaxData,
    encodeTransportParam tpInitialMaxStreamDataBidiLocal params.initialMaxStreamDataBidiLocal,
    encodeTransportParam tpInitialMaxStreamDataBidiRemote params.initialMaxStreamDataBidiRemote,
    encodeTransportParam tpInitialMaxStreamDataUni params.initialMaxStreamDataUni,
    encodeTransportParam tpInitialMaxStreamsBidi params.initialMaxStreamsBidi,
    encodeTransportParam tpInitialMaxStreamsUni params.initialMaxStreamsUni,
    onlyIf (params.ackDelayExponent != 3)
      (encodeTransportParam tpAckDelayExponent params.ackDelayExponent),
    onlyIf (params.maxAckDelayMs != defaultMaxAckDelayMs)
      (encodeTransportParam tpMaxAckDelay params.maxAckDelayMs),
    onlyIf params.disableActiveMigration (encodeTransportBytesParam tpDisableActiveMigration []),
    forSome params.preferredAddress fun address => do
      validatePreferredAddress address
      encodeTransportBytesParam tpPreferredAddress address,
    encodeTransportParam tpActiveConnectionIdLimit params.activeConnectionIdLimit,
    forSome params.initialSourceConnectionId fun cid =>
      encodeTransportBytesParam tpInitialSourceConnectionId cid.bytes,
    forSome params.retrySourceConnectionId fun cid =>
      encodeTransportBytesParam tpRetrySourceConnectionId cid.bytes,
    encodeTransportBytesParam grease.1 grease.2]

/-! ## Parsing -/

def varintOr (message : String) : Cursor UInt8 QuicError Nat :=
  .call fun rest =>
    match decodeVarintChecked rest with
    | .error _ => .error (transportParameterError message)
    | other => other

def transportParameter : Cursor UInt8 QuicError (Nat × Bytes) := do
  let id ← varintOr "truncated transport parameter id"
  let len ← varintOr "truncated transport parameter length"
  let value ← .takeBytes len (transportParameterError "truncated transport parameter value")
  return (id, value)

def decodeTransportParamValue (value : Bytes) : Outcome QuicError Nat :=
  match decodeVarintChecked value with
  | .ok (decoded, consumed) =>
    if consumed ≠ value.length then
      .error (transportParameterError "transport parameter value has trailing bytes")
    else .ok decoded
  | .error _ => .error (transportParameterError "invalid transport parameter value")
  | .panic => .panic

def decodeTransportConnectionId (name : String) (value : Bytes) : Outcome QuicError ConnectionId :=
  if maxCidLen < value.length then
    .error (transportParameterError (name ++ " exceeds maximum connection ID length"))
  else .ok (.fromSlice value)

def decodeResetToken (value : Bytes) : Outcome QuicError ResetToken :=
  if h : value.length = 16 then .ok ⟨value, h⟩
  else .error (transportParameterError "stateless reset token must be 16 bytes")

/-- An integer that has to meet a condition. -/
def decodeCheckedValue (value : Bytes) (accepted : Nat → Bool) (message : String) :
    Outcome QuicError Nat := do
  let decoded ← decodeTransportParamValue value
  if accepted decoded then return decoded else .error (transportParameterError message)

/-- Take over one parameter; unknown ones are ignored. -/
def setTransportParameter (params : PeerTransportParameters) (id : Nat) (value : Bytes) :
    Outcome QuicError PeerTransportParameters :=
  match id with
  | tpOriginalDestinationConnectionId => do
      let cid ← decodeTransportConnectionId "original_destination_connection_id" value
      return { params with originalDestinationConnectionId := some cid }
  | tpMaxIdleTimeout => do
      return { params with maxIdleTimeoutMs := ← decodeTransportParamValue value }
  | tpStatelessResetToken => do
      return { params with statelessResetToken := some (← decodeResetToken value) }
  | tpMaxUdpPayloadSize => do
      let size ← decodeCheckedValue value (minMaxUdpPayloadSize ≤ ·)
        "max_udp_payload_size must be at least 1200"
      return { params with maxUdpPayloadSize := size }
  | tpInitialMaxData => do
      return { params with initialMaxData := ← decodeTransportParamValue value }
  | tpInitialMaxStreamDataBidiLocal => do
      return { params with initialMaxStreamDataBidiLocal := ← decodeTransportParamValue value }
  | tpInitialMaxStreamDataBidiRemote => do
      return { params with initialMaxStreamDataBidiRemote := ← decodeTransportParamValue value }
  | tpInitialMaxStreamDataUni => do
      return { params with initialMaxStreamDataUni := ← decodeTransportParamValue value }
  | tpInitialMaxStreamsBidi => do
      return { params with initialMaxStreamsBidi := ← decodeTransportParamValue value }
  | tpInitialMaxStreamsUni => do
      return { params with initialMaxStreamsUni := ← decodeTransportParamValue value }
  | tpAckDelayExponent => do
      let exponent ← decodeCheckedValue value (· ≤ maxAckDelayExponent)
        "ack delay exponent must be <= 20"
      return { params with ackDelayExponent := exponent }
  | tpMaxAckDelay => do
      let delay ← decodeCheckedValue value (· ≤ maxMaxAckDelayMs)
        "max_ack_delay must be <= 16384 milliseconds"
      return { params with maxAckDelayMs := delay }
  | tpDisableActiveMigration =>
    if value.isEmpty then return { params with disableActiveMigration := true }
    else .error (transportParameterError "disable_active_migration must be zero-length")
  | tpPreferredAddress => do
      validatePreferredAddress value
      return { params with preferredAddress := some value }
  | tpActiveConnectionIdLimit => do
      let limit ← decodeCheckedValue value (2 ≤ ·) "active_connection_id_limit must be >= 2"
      return { params with activeConnectionIdLimit := limit }
  | tpInitialSourceConnectionId => do
      let cid ← decodeTransportConnectionId "initial_source_connection_id" value
      return { params with initialSourceConnectionId := some cid }
  | tpRetrySourceConnectionId => do
      let cid ← decodeTransportConnectionId "retry_source_connection_id" value
      return { params with retrySourceConnectionId := some cid }
  | _ => return params

/-- A number in messages, without a leading mark. -/
def hexDigits (n : Nat) : String := String.ofList (Nat.toDigits 16 n)

/-- The offset of the parser, what it has read so far and the identifiers it has seen. -/
structure ParameterState where
  offset : Nat
  params : PeerTransportParameters
  seen : List Nat

def nextParameter (buf : Bytes) (s : ParameterState) : Outcome QuicError ParameterState := do
  let ((id, value), offset) ← transportParameter buf s.offset
  if id ∈ s.seen then
    .error (transportParameterError ("duplicate transport parameter 0x" ++ hexDigits id))
  else
    let params ← setTransportParameter s.params id value
    return ⟨offset, params, id :: s.seen⟩

def parameterStep (buf : Bytes) (s : ParameterState) :
    ParameterState ⊕ Outcome QuicError PeerTransportParameters :=
  if s.offset < buf.length then
    match nextParameter buf s with
    | .ok next => .inl next
    | .error e => .inr (.error e)
    | .panic => .inr .panic
  else .inr (.ok s.params)

def parseTransportParameters (buf : Bytes) : Option (Outcome QuicError PeerTransportParameters) :=
  Loop.run (parameterStep buf) (buf.length + 1) ⟨0, {}, []⟩

end Starfish.Quic
