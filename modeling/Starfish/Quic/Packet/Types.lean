import Starfish.Quic.Packet.Header

/-!
# Packet types

The fields after the long header of Initial, Handshake and 0-RTT packets, and the
encoding of all packet types up to the payload, which is sealed afterwards.
-/

namespace Starfish.Quic

/-! ## Parsing -/

structure PacketFields where
  pnOffset : Nat
  length : Nat
deriving DecidableEq, Repr

def parseLengthField (buf : Bytes) (offset : Nat) : Except QuicError PacketFields :=
  (decodeVarint (buf.drop offset)).map fun field => ⟨offset + field.2, field.1⟩

def parseInitialFields (buf : Bytes) (headerLen : Nat) : Except QuicError PacketFields :=
  match decodeVarint (buf.drop headerLen) with
  | .error e => .error e
  | .ok (tokenLen, consumed) =>
    let offset := headerLen + consumed
    if buf.length < offset + tokenLen then
      .error (.invalidPacket "initial packet truncated at token")
    else parseLengthField buf (offset + tokenLen)

def parseHandshakeFields (buf : Bytes) (headerLen : Nat) : Except QuicError PacketFields :=
  parseLengthField buf headerLen

def parseZeroRttFields (buf : Bytes) (headerLen : Nat) : Except QuicError PacketFields :=
  parseLengthField buf headerLen

variable {buf payload : Bytes} {fields : PacketFields} {dcid scid : ConnectionId} {aeadTagLen : Nat}

theorem parseLengthField_offset {offset : Nat}
    (h : parseLengthField buf offset = .ok fields) : offset ≤ fields.pnOffset := by
  unfold parseLengthField at h
  cases hvarint : decodeVarint (buf.drop offset) with
  | error e =>
    rw [hvarint] at h
    cases h
  | ok field =>
    rw [hvarint] at h
    cases h
    exact Nat.le_add_right _ _

theorem parseInitialFields_offset {headerLen : Nat}
    (h : parseInitialFields buf headerLen = .ok fields) : headerLen ≤ fields.pnOffset := by
  unfold parseInitialFields at h
  split at h
  · cases h
  · dsimp only at h
    split at h
    · cases h
    · have hoffset := parseLengthField_offset h
      omega

/-! ## Encoding -/

structure EncodedPacket where
  bytes : Bytes
  pnOffset : Nat
  pnLen : Nat
deriving DecidableEq, Repr

def appendPayload (head : Bytes) (pn largestAcked : Nat) (payload : Bytes) : EncodedPacket :=
  let encoded := encodePacketNumber pn largestAcked
  ⟨head ++ encoded.1 ++ payload, head.length, encoded.2⟩

def encodeLength (pn largestAcked : Nat) (payload : Bytes) (aeadTagLen : Nat) :
    Except QuicError Bytes :=
  encodeVarint (packetNumberLen pn largestAcked + payload.length + aeadTagLen)

def encodeInitialPacket (dcid scid : ConnectionId) (token : Bytes) (pn largestAcked : Nat)
    (payload : Bytes) (aeadTagLen : Nat) : Except QuicError EncodedPacket := do
  let header := encodeLongHeader .initial dcid scid (packetNumberLen pn largestAcked)
  let tokenLen ← encodeVarint token.length
  let length ← encodeLength pn largestAcked payload aeadTagLen
  return appendPayload (header ++ tokenLen ++ token ++ length) pn largestAcked payload

def encodeLongPacket (packetType : LongPacketType) (dcid scid : ConnectionId)
    (pn largestAcked : Nat) (payload : Bytes) (aeadTagLen : Nat) :
    Except QuicError EncodedPacket := do
  let header := encodeLongHeader packetType dcid scid (packetNumberLen pn largestAcked)
  let length ← encodeLength pn largestAcked payload aeadTagLen
  return appendPayload (header ++ length) pn largestAcked payload

def encodeHandshakePacket (dcid scid : ConnectionId) (pn largestAcked : Nat) (payload : Bytes)
    (aeadTagLen : Nat) : Except QuicError EncodedPacket :=
  encodeLongPacket .handshake dcid scid pn largestAcked payload aeadTagLen

def encodeZeroRttPacket (dcid scid : ConnectionId) (pn largestAcked : Nat) (payload : Bytes)
    (aeadTagLen : Nat) : Except QuicError EncodedPacket :=
  encodeLongPacket .zeroRtt dcid scid pn largestAcked payload aeadTagLen

def encodeOneRttPacket (dcid : ConnectionId) (spinBit keyPhase : Bool) (pn largestAcked : Nat)
    (payload : Bytes) : EncodedPacket :=
  appendPayload (encodeShortHeader dcid spinBit keyPhase (packetNumberLen pn largestAcked)) pn
    largestAcked payload

/-- What every encoder guarantees: something precedes the packet number, which has its usual
length, and the rest is a payload of at least the given length. -/
structure EncodedPacket.Shaped (packet : EncodedPacket) (pn largestAcked payloadLen : Nat) :
    Prop where
  pnOffset_pos : 0 < packet.pnOffset
  pnLen_eq : packet.pnLen = packetNumberLen pn largestAcked
  length_le : packet.pnOffset + packet.pnLen + payloadLen ≤ packet.bytes.length

variable {packet : EncodedPacket} {pn largestAcked : Nat}

theorem EncodedPacket.Shaped.mono {payloadLen len : Nat}
    (h : packet.Shaped pn largestAcked payloadLen) (hle : len ≤ payloadLen) :
    packet.Shaped pn largestAcked len :=
  ⟨h.pnOffset_pos, h.pnLen_eq, Nat.le_trans (Nat.add_le_add_left hle _) h.length_le⟩

theorem appendPayload_shaped {head : Bytes} (hhead : 0 < head.length) (pn largestAcked : Nat)
    (payload : Bytes) :
    (appendPayload head pn largestAcked payload).Shaped pn largestAcked payload.length := by
  refine ⟨hhead, rfl, ?_⟩
  simp only [appendPayload, List.length_append, encodePacketNumber_length]
  exact Nat.le_refl _

theorem encodeLongHeader_pos (packetType : LongPacketType) (dcid scid : ConnectionId)
    (pnLen : Nat) : 0 < (encodeLongHeader packetType dcid scid pnLen).length := by
  simp [encodeLongHeader]

theorem encodeInitialPacket_shaped {token : Bytes}
    (h : encodeInitialPacket dcid scid token pn largestAcked payload aeadTagLen = .ok packet) :
    packet.Shaped pn largestAcked payload.length := by
  unfold encodeInitialPacket at h
  obtain ⟨tokenLen, htoken, h⟩ := except_bind_eq_ok.mp h
  obtain ⟨length, hlength, h⟩ := except_bind_eq_ok.mp h
  cases h
  grind [appendPayload_shaped, encodeLongHeader_pos]

theorem encodeLongPacket_shaped {packetType : LongPacketType}
    (h : encodeLongPacket packetType dcid scid pn largestAcked payload aeadTagLen = .ok packet) :
    packet.Shaped pn largestAcked payload.length := by
  unfold encodeLongPacket at h
  obtain ⟨length, hlength, h⟩ := except_bind_eq_ok.mp h
  cases h
  grind [appendPayload_shaped, encodeLongHeader_pos]

theorem encodeOneRttPacket_shaped (dcid : ConnectionId) (spinBit keyPhase : Bool)
    (pn largestAcked : Nat) (payload : Bytes) :
    (encodeOneRttPacket dcid spinBit keyPhase pn largestAcked payload).Shaped pn largestAcked
      payload.length := by
  apply appendPayload_shaped
  simp [encodeShortHeader]

end Starfish.Quic
