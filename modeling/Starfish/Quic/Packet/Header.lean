import Starfish.Quic.Packet.Varint

/-!
# Packet headers and packet numbers

Long and short headers (RFC 9000, section 17) and the truncation of packet numbers
(appendix A). Parsing reads the unprotected parts of a header only.
-/

namespace Starfish.Quic

/-- The longest connection ID. -/
def maxCidLen : Nat := 20

structure ConnectionId where
  bytes : Bytes
  length_le : bytes.length ≤ maxCidLen
deriving DecidableEq

namespace ConnectionId

/-- Longer input is cut. -/
def fromSlice (data : Bytes) : ConnectionId :=
  ⟨data.take maxCidLen, by rw [List.length_take]; exact Nat.min_le_left _ _⟩

def len (cid : ConnectionId) : Nat := cid.bytes.length

end ConnectionId

theorem fromSlice_bytes (cid : ConnectionId) : ConnectionId.fromSlice cid.bytes = cid := by
  cases cid with
  | mk bytes hle => simp [ConnectionId.fromSlice, List.take_of_length_le hle]

def quicVersion1 : Nat := 1

inductive LongPacketType
  | initial
  | zeroRtt
  | handshake
  | retry
deriving DecidableEq, Repr

def LongPacketType.bits : LongPacketType → UInt8
  | .initial => 0
  | .zeroRtt => 1
  | .handshake => 2
  | .retry => 3

def hexByte (b : UInt8) : String :=
  "0x" ++ String.ofList [Nat.digitChar (b.toNat / 16), Nat.digitChar (b.toNat % 16)]

def LongPacketType.fromBits (bits : UInt8) : Except QuicError LongPacketType :=
  if bits = 0 then .ok .initial
  else if bits = 1 then .ok .zeroRtt
  else if bits = 2 then .ok .handshake
  else if bits = 3 then .ok .retry
  else .error (.invalidPacket ("unknown long packet type: " ++ hexByte bits))

structure LongHeader where
  packetType : LongPacketType
  firstByte : UInt8
  version : Nat
  dcid : ConnectionId
  scid : ConnectionId
  headerLen : Nat
deriving DecidableEq

inductive PacketHeader
  | long (header : LongHeader)
  | short (dcid : ConnectionId)
  | versionNegotiation (supportedVersions : List Nat)
deriving DecidableEq

/-! ## Parsing -/

def byteAt (buf : Bytes) (i : Nat) : UInt8 := buf.getD i 0

def slice (buf : Bytes) (start stop : Nat) : Bytes := (buf.drop start).take (stop - start)

def isLongHeader (firstByte : UInt8) : Bool := firstByte &&& 0x80 != 0

def readVersions : Bytes → List Nat
  | a :: b :: c :: d :: rest => beNat [a, b, c, d] :: readVersions rest
  | _ => []

def parseLongHeader (buf : Bytes) : Except QuicError PacketHeader :=
  if buf.length < 7 then .error (.invalidPacket "long header too short")
  else
    let firstByte := byteAt buf 0
    let version := beNat (slice buf 1 5)
    let dcidLen := (byteAt buf 5).toNat
    if maxCidLen < dcidLen ∨ buf.length < 6 + dcidLen + 1 then
      .error (.invalidPacket "invalid DCID length")
    else
      let dcid := ConnectionId.fromSlice (slice buf 6 (6 + dcidLen))
      let scidLen := (byteAt buf (6 + dcidLen)).toNat
      let scidStart := 7 + dcidLen
      if maxCidLen < scidLen ∨ buf.length < scidStart + scidLen then
        .error (.invalidPacket "invalid SCID length")
      else
        let scid := ConnectionId.fromSlice (slice buf scidStart (scidStart + scidLen))
        let headerLen := scidStart + scidLen
        if version = 0 then .ok (.versionNegotiation (readVersions (buf.drop headerLen)))
        else
          (LongPacketType.fromBits ((firstByte &&& 0x30) >>> 4)).map fun packetType =>
            .long ⟨packetType, firstByte, version, dcid, scid, headerLen⟩

def parseShortHeader (buf : Bytes) (localCidLen : Nat) : Except QuicError PacketHeader :=
  if buf.length < 1 + localCidLen + 1 then .error (.invalidPacket "short header too short")
  else .ok (.short (.fromSlice (slice buf 1 (1 + localCidLen))))

def parseHeader (buf : Bytes) (localCidLen : Nat) : Except QuicError PacketHeader :=
  if buf.isEmpty then .error (.invalidPacket "empty packet")
  else if isLongHeader (byteAt buf 0) then parseLongHeader buf
  else parseShortHeader buf localCidLen

/-- The type-specific part of a long header packet starts after at least seven bytes and
inside the packet. -/
theorem parseHeader_long {buf : Bytes} {localCidLen : Nat} {h : LongHeader}
    (hparse : parseHeader buf localCidLen = .ok (.long h)) :
    7 ≤ h.headerLen ∧ h.headerLen ≤ buf.length := by
  unfold parseHeader at hparse
  split at hparse
  · cases hparse
  · split at hparse
    · unfold parseLongHeader at hparse
      dsimp only at hparse
      split at hparse
      · cases hparse
      · split at hparse
        · cases hparse
        · split at hparse
          · cases hparse
          · next hscid =>
            split at hparse
            · cases hparse
            · cases htype : LongPacketType.fromBits ((byteAt buf 0 &&& 0x30) >>> 4) with
              | error e =>
                rw [htype] at hparse
                cases hparse
              | ok packetType =>
                rw [htype] at hparse
                cases hparse
                dsimp only
                omega
    · grind [parseShortHeader]

/-! ## Encoding -/

def be32 (n : Nat) : Bytes := [lowByte (n >>> 24), lowByte (n >>> 16), lowByte (n >>> 8), lowByte n]

def encodeLongHeader (packetType : LongPacketType) (dcid scid : ConnectionId) (pnLen : Nat) :
    Bytes :=
  [(0xc0 : UInt8) ||| packetType.bits <<< 4 ||| lowByte (pnLen - 1)] ++ be32 quicVersion1 ++
    [lowByte dcid.len] ++ dcid.bytes ++ [lowByte scid.len] ++ scid.bytes

def encodeShortHeader (dcid : ConnectionId) (spinBit keyPhase : Bool) (pnLen : Nat) : Bytes :=
  [(0x40 : UInt8) ||| (if spinBit then 0x20 else 0) ||| (if keyPhase then 0x04 else 0) |||
    (lowByte (pnLen - 1) &&& 0x03)] ++ dcid.bytes

/-! ## Packet numbers -/

def packetNumberLen (pn largestAcked : Nat) : Nat :=
  let numUnacked := pn - largestAcked
  if numUnacked < 0x80 then 1
  else if numUnacked < 0x8000 then 2
  else if numUnacked < 0x800000 then 3
  else 4

def encodePacketNumber (pn largestAcked : Nat) : Bytes × Nat :=
  let len := packetNumberLen pn largestAcked
  ((be32 pn).drop (4 - len), len)

theorem packetNumberLen_range (pn largestAcked : Nat) :
    1 ≤ packetNumberLen pn largestAcked ∧ packetNumberLen pn largestAcked ≤ 4 := by
  grind [packetNumberLen]

theorem encodePacketNumber_length (pn largestAcked : Nat) :
    (encodePacketNumber pn largestAcked).1.length = packetNumberLen pn largestAcked := by
  grind [packetNumberLen_range, encodePacketNumber, be32]

/-- The packet number closest to the next expected one that ends in the received bytes. -/
def decodePacketNumber (truncatedPn pnLen largestPn : Nat) : Nat :=
  let pnWin := 1 <<< (pnLen * 8)
  let pnHwin := pnWin / 2
  let expectedPn := largestPn + 1
  -- The code clears the low bits of the expected number and sets the received ones.
  let candidate := (expectedPn - expectedPn % pnWin) ||| truncatedPn
  if candidate + pnHwin ≤ expectedPn ∧ candidate < 2 ^ 62 - pnWin then candidate + pnWin
  else if expectedPn + pnHwin < candidate ∧ pnWin ≤ candidate then candidate - pnWin
  else candidate

end Starfish.Quic
