import Starfish.Lib.Items
import Starfish.Quic.Packet.Checked

/-!
# Coalesced packets

A datagram may hold several packets. The receiver finds the end of each long header
packet from its length field; a short header packet extends to the end. Packets written
by the encoders, sealed and put one behind the other are split again into the same
packets.
-/

namespace Starfish.Quic

/-! ## Splitting a datagram -/

inductive ParsedPacket
  | initial (dcid scid : ConnectionId) (fields : InitialPacket) (extent : Bytes)
  | handshake (dcid scid : ConnectionId) (fields : LongPacket) (extent : Bytes)
  | zeroRtt (dcid scid : ConnectionId) (fields : LongPacket) (extent : Bytes)
  | oneRtt (dcid : ConnectionId) (pnOffset : Nat) (extent : Bytes)
deriving DecidableEq

def cutPacket (remaining : Bytes) (pnOffset length : Nat) : Outcome QuicError (Bytes × Bytes) := do
  let packetEnd ← Outcome.add pnOffset length
  let packetEnd := min packetEnd remaining.length
  let extent ← Outcome.range remaining 0 packetEnd
  let rest ← Outcome.range remaining packetEnd remaining.length
  return (extent, rest)

/-- Parse the packet in front of the remaining bytes. There is none after a Retry or a Version
Negotiation packet, which end the datagram. -/
def parseFront (remaining : Bytes) (localCidLen : Nat) :
    Outcome QuicError (Option (ParsedPacket × Bytes)) := do
  match ← parseHeaderChecked remaining localCidLen with
  | .long h =>
    match h.packetType with
    | .initial =>
      let fields ← parseInitialFieldsChecked remaining h.headerLen h.firstByte
      let (extent, rest) ← cutPacket remaining fields.pnOffset fields.length
      return some (.initial h.dcid h.scid fields extent, rest)
    | .handshake =>
      let fields ← parseHandshakeFieldsChecked remaining h.headerLen h.firstByte
      let (extent, rest) ← cutPacket remaining fields.pnOffset fields.length
      return some (.handshake h.dcid h.scid fields extent, rest)
    | .zeroRtt =>
      let fields ← parseZeroRttFieldsChecked remaining h.headerLen h.firstByte
      let (extent, rest) ← cutPacket remaining fields.pnOffset fields.length
      return some (.zeroRtt h.dcid h.scid fields extent, rest)
    | .retry => return none
  | .short dcid =>
    let pnOffset ← Outcome.add 1 localCidLen
    return some (.oneRtt dcid pnOffset remaining, [])
  | .versionNegotiation _ => return none

def splitDatagram (datagram : Bytes) (localCidLen : Nat) :
    Option (Outcome QuicError (List ParsedPacket)) :=
  Items.readAll (parseFront · localCidLen) datagram

/-! ## Headers read back -/

theorem longFirstByte : ∀ packetType : LongPacketType, ∀ len ≤ 4, 1 ≤ len →
    let first := (0xc0 : UInt8) ||| packetType.bits <<< 4 ||| lowByte (len - 1)
    isLongHeader first = true ∧
      LongPacketType.fromBits ((first &&& 0x30) >>> 4) = .ok packetType ∧
      (pnLenOf first).toNat = len := by
  intro packetType
  cases packetType <;> decide

theorem lowByte_len (cid : ConnectionId) : (lowByte cid.len).toNat = cid.len := by
  have hle := cid.length_le
  have hmax : maxCidLen = 20 := rfl
  rw [lowByte_toNat, ConnectionId.len]
  omega

variable (dcid scid : ConnectionId)

theorem parseLongHeader_cids {first : UInt8} {packetType : LongPacketType} (rest : Bytes)
    (htype : LongPacketType.fromBits ((first &&& 0x30) >>> 4) = .ok packetType) :
    parseLongHeader ([first, 0, 0, 0, 1, lowByte dcid.len] ++
        (dcid.bytes ++ (lowByte scid.len :: (scid.bytes ++ rest)))) =
      .ok (.long ⟨packetType, first, 1, dcid, scid, 7 + dcid.len + scid.len⟩) := by
  have hdcid : dcid.bytes.length = dcid.len := rfl
  have hscid : scid.bytes.length = scid.len := rfl
  have hdcidMax : dcid.len ≤ maxCidLen := dcid.length_le
  have hscidMax : scid.len ≤ maxCidLen := scid.length_le
  generalize hbuf : [first, 0, 0, 0, 1, lowByte dcid.len] ++
    (dcid.bytes ++ (lowByte scid.len :: (scid.bytes ++ rest))) = buf
  have hlength : buf.length = 7 + dcid.len + scid.len + rest.length := by
    rw [← hbuf]
    simp only [List.length_append, List.length_cons, List.length_nil]
    omega
  have hfirst : byteAt buf 0 = first := by rw [← hbuf]; rfl
  have hversion : beNat (slice buf 1 5) = 1 := by rw [← hbuf]; rfl
  have hlen : (byteAt buf 5).toNat = dcid.len := by rw [← hbuf]; exact lowByte_len dcid
  have hdcidSlice : slice buf 6 (6 + dcid.len) = dcid.bytes := by
    rw [← hbuf, slice, Nat.add_sub_cancel_left]
    exact List.take_left
  have hscidLen : (byteAt buf (6 + dcid.len)).toNat = scid.len := by
    have hdrop : byteAt buf (6 + dcid.len) = lowByte scid.len := by
      rw [← hbuf, byteAt, List.getD_eq_getElem?_getD,
        List.getElem?_append_right (by simp), ← hdcid]
      simp
    rw [hdrop, lowByte_len]
  have hscidSlice : slice buf (7 + dcid.len) (7 + dcid.len + scid.len) = scid.bytes := by
    have hdrop : buf.drop (7 + dcid.len) = scid.bytes ++ rest := by
      have hsix : buf.drop 6 = dcid.bytes ++ (lowByte scid.len :: (scid.bytes ++ rest)) := by
        rw [← hbuf]
        rfl
      rw [show 7 + dcid.len = 6 + (dcid.bytes.length + 1) by omega, ← List.drop_drop, hsix,
        List.drop_length_add_append]
      rfl
    rw [slice, hdrop, Nat.add_sub_cancel_left, ← hscid, List.take_left]
  simp only [parseLongHeader, hfirst, hversion, hlen, hdcidSlice, hscidLen, hscidSlice, htype,
    fromSlice_bytes]
  rw [if_neg (by omega), if_neg (by omega), if_neg (by omega), if_neg (by decide)]
  rfl

variable (packetType : LongPacketType) {len : Nat}

theorem parseHeaderChecked_encodeLongHeader (dcid scid : ConnectionId) (hlen : 1 ≤ len ∧ len ≤ 4)
    (rest : Bytes) (localCidLen : Nat) :
    parseHeaderChecked (encodeLongHeader packetType dcid scid len ++ rest) localCidLen =
      .ok (.long ⟨packetType, (0xc0 : UInt8) ||| packetType.bits <<< 4 ||| lowByte (len - 1), 1, dcid,
        scid, (encodeLongHeader packetType dcid scid len).length⟩) := by
  obtain ⟨hlong, htype, -⟩ := longFirstByte packetType len hlen.2 hlen.1
  have hbytes : encodeLongHeader packetType dcid scid len ++ rest =
      [(0xc0 : UInt8) ||| packetType.bits <<< 4 ||| lowByte (len - 1), 0, 0, 0, 1,
        lowByte dcid.len] ++ (dcid.bytes ++ (lowByte scid.len :: (scid.bytes ++ rest))) := by
    simp only [encodeLongHeader, List.append_assoc]
    rfl
  have hlength : (encodeLongHeader packetType dcid scid len).length = 7 + dcid.len + scid.len := by
    grind [List.length_cons, ConnectionId.len]
  rw [hbytes, hlength, ← Outcome.ofExcept_ok_iff.mpr (parseLongHeader_cids dcid scid rest htype)]
  refine (if_pos hlong).trans (parseLongHeaderChecked_eq (.inl ?_))
  exact Nat.one_ne_zero

theorem shortFirstByte : ∀ spinBit keyPhase : Bool, ∀ len ≤ 4, 1 ≤ len →
    isLongHeader ((0x40 : UInt8) ||| (if spinBit then 0x20 else 0) |||
      (if keyPhase then 0x04 else 0) ||| (lowByte (len - 1) &&& 0x03)) = false := by
  decide

variable {rest token : Bytes} {length localCidLen : Nat} {spec : LongPacketSpec}

theorem parseHeaderChecked_encodeShortHeader (spinBit keyPhase : Bool) (hlen : 1 ≤ len ∧ len ≤ 4)
    (hrest : rest ≠ []) :
    parseHeaderChecked (encodeShortHeader dcid spinBit keyPhase len ++ rest) dcid.len =
      .ok (.short dcid) := by
  have hshort := shortFirstByte spinBit keyPhase len hlen.2 hlen.1
  have hdcid : dcid.bytes.length = dcid.len := rfl
  have hmax : dcid.len ≤ 20 := dcid.length_le
  have hpos := List.length_pos_iff.mpr hrest
  have hparse : parseShortHeaderChecked (encodeShortHeader dcid spinBit keyPhase len ++ rest)
      dcid.len = .ok (.short dcid) := by
    have hlength : (encodeShortHeader dcid spinBit keyPhase len ++ rest).length =
        1 + dcid.len + rest.length := by
      grind [encodeShortHeader]
    have hslice : slice (encodeShortHeader dcid spinBit keyPhase len ++ rest) 1 (1 + dcid.len) =
        dcid.bytes := by
      rw [slice, Nat.add_sub_cancel_left, encodeShortHeader, List.append_assoc, ← hdcid]
      exact List.take_left
    rw [parseShortHeaderChecked, Outcome.add_of_le (by unfold usizeMax; omega), Outcome.ok_bind,
      Outcome.add_of_le (by unfold usizeMax; omega), Outcome.ok_bind, if_neg (by omega),
      range_eq_slice (by omega) (by omega), Outcome.ok_bind, hslice, fromSlice_bytes]
    rfl
  rw [← hparse]
  exact if_neg (Bool.eq_false_iff.mp hshort)

/-! ## Packets read back -/

inductive LongPacketSpec
  | initial (dcid scid : ConnectionId) (token : Bytes) (pn largestAcked : Nat) (payload : Bytes)
  | handshake (dcid scid : ConnectionId) (pn largestAcked : Nat) (payload : Bytes)
  | zeroRtt (dcid scid : ConnectionId) (pn largestAcked : Nat) (payload : Bytes)

namespace LongPacketSpec

def encode (aeadTagLen : Nat) : LongPacketSpec → Except QuicError EncodedPacket
  | .initial dcid scid token pn largestAcked payload =>
    encodeInitialPacket dcid scid token pn largestAcked payload aeadTagLen
  | .handshake dcid scid pn largestAcked payload =>
    encodeHandshakePacket dcid scid pn largestAcked payload aeadTagLen
  | .zeroRtt dcid scid pn largestAcked payload =>
    encodeZeroRttPacket dcid scid pn largestAcked payload aeadTagLen

def parsed (packet : EncodedPacket) (extent : Bytes) : LongPacketSpec → ParsedPacket
  | .initial dcid scid token _ _ _ =>
    .initial dcid scid ⟨token, packet.pnOffset, UInt8.ofNat packet.pnLen,
      extent.length - packet.pnOffset⟩ extent
  | .handshake dcid scid _ _ _ =>
    .handshake dcid scid ⟨packet.pnOffset, UInt8.ofNat packet.pnLen,
      extent.length - packet.pnOffset⟩ extent
  | .zeroRtt dcid scid _ _ _ =>
    .zeroRtt dcid scid ⟨packet.pnOffset, UInt8.ofNat packet.pnLen,
      extent.length - packet.pnOffset⟩ extent

end LongPacketSpec

/-- The bytes on the wire of an encoded packet: what precedes the packet number is kept, the rest
grows by the tag. This covers the encoding with a tag behind it as well as any encryption of the
packet number and the payload. -/
structure EncodedPacket.Sealed (packet : EncodedPacket) (aeadTagLen : Nat) (extent : Bytes) :
    Prop where
  header_eq : extent.take packet.pnOffset = packet.bytes.take packet.pnOffset
  length_eq : extent.length = packet.bytes.length + aeadTagLen

variable {aeadTagLen pn largestAcked : Nat} {extent payload : Bytes}

theorem EncodedPacket.Sealed.split {head : Bytes}
    (h : (appendPayload head pn largestAcked payload).Sealed aeadTagLen extent) :
    ∃ body, extent = head ++ body ∧
      body.length = packetNumberLen pn largestAcked + payload.length + aeadTagLen := by
  have hheader := h.header_eq
  have hlength := h.length_eq
  simp only [appendPayload, List.append_assoc, List.take_left, List.length_append,
    encodePacketNumber_length] at hheader hlength
  refine ⟨extent.drop head.length, ?_, ?_⟩
  · conv_lhs => rw [← List.take_append_drop head.length extent, hheader]
  · rw [List.length_drop]
    omega

theorem cutPacket_eq {pnOffset : Nat}
    (hlength : pnOffset + length = extent.length) (hsize : extent.length ≤ usizeMax) :
    cutPacket (extent ++ rest) pnOffset length = .ok (extent, rest) := by
  have hmin : min extent.length (extent ++ rest).length = extent.length := by
    rw [List.length_append]
    omega
  rw [cutPacket, Outcome.add_of_le (by omega), Outcome.ok_bind, hlength]
  simp only [hmin]
  rw [Outcome.range_of_le (Nat.zero_le _) (by simp), Outcome.ok_bind,
    Outcome.range_to_end (by simp), Outcome.ok_bind, List.drop_zero, Nat.sub_zero,
    List.take_left, List.drop_left]
  rfl

theorem encodeLongHeader_length_le (dcid scid : ConnectionId) (pnLen : Nat) :
    (encodeLongHeader packetType dcid scid pnLen).length ≤ 47 := by
  have hdcid : dcid.bytes.length ≤ 20 := dcid.length_le
  have hscid : scid.bytes.length ≤ 20 := scid.length_le
  simp only [encodeLongHeader, be32, List.length_append, List.length_cons, List.length_nil]
  omega

theorem initialFields_decodes {tokenLen lengthBytes : Bytes}
    (htoken : encodeVarint token.length = .ok tokenLen)
    (hlength : encodeVarint length = .ok lengthBytes) :
    Cursor.Decodes initialFields (tokenLen ++ (token ++ (lengthBytes ++ []))) (token, length) := by
  apply Cursor.Decodes.bind (varint_decodes htoken)
  apply Cursor.Decodes.bind (Cursor.Decodes.takeBytes _)
  apply Cursor.Decodes.bind (varint_decodes hlength)
  exact Cursor.Decodes.pure _

theorem pnLenOf_longFirstByte (hlen : 1 ≤ len ∧ len ≤ 4) :
    pnLenOf ((0xc0 : UInt8) ||| packetType.bits <<< 4 ||| lowByte (len - 1)) = UInt8.ofNat len := by
  obtain ⟨-, -, hpn⟩ := longFirstByte packetType len hlen.2 hlen.1
  apply UInt8.toNat_inj.mp
  rw [hpn, UInt8.toNat_ofNat']
  omega

variable {packet : EncodedPacket}

theorem parseFront_initial {dcid scid : ConnectionId}
    (hencode : encodeInitialPacket dcid scid token pn largestAcked payload aeadTagLen = .ok packet)
    (hsealed : packet.Sealed aeadTagLen extent) (rest : Bytes) (localCidLen : Nat) :
    parseFront (extent ++ rest) localCidLen =
      .ok (some (.initial dcid scid ⟨token, packet.pnOffset, UInt8.ofNat packet.pnLen,
        extent.length - packet.pnOffset⟩ extent, rest)) := by
  have hrange := packetNumberLen_range pn largestAcked
  unfold encodeInitialPacket at hencode
  obtain ⟨tokenLen, htoken, hencode⟩ := except_bind_eq_ok.mp hencode
  obtain ⟨lengthBytes, hlength, hencode⟩ := except_bind_eq_ok.mp hencode
  cases hencode
  obtain ⟨body, rfl, hbody⟩ := hsealed.split
  have hheader := encodeLongHeader_length_le .initial dcid scid
    (packetNumberLen pn largestAcked)
  have htokenMax := le_of_encodeVarint htoken
  have hlengthMax := le_of_encodeVarint hlength
  have htokenLen := encodeVarint_length htoken
  have hlengthLen := encodeVarint_length hlength
  have hsmall : 2 * maxVarint + 100 ≤ usizeMax := by decide
  generalize hlong : encodeLongHeader .initial dcid scid
    (packetNumberLen pn largestAcked) = header at *
  have hsplit : header ++ tokenLen ++ token ++ lengthBytes ++ body ++ rest =
      header ++ (tokenLen ++ (token ++ (lengthBytes ++ [])) ++ (body ++ rest)) := by
    simp only [List.append_assoc, List.append_nil]
  have hparse := parseHeaderChecked_encodeLongHeader .initial dcid scid hrange
    (tokenLen ++ (token ++ (lengthBytes ++ [])) ++ (body ++ rest)) localCidLen
  have hfields := initialFields_decodes htoken hlength header (body ++ rest) (by
    simp only [List.length_append, List.length_nil]
    omega)
  rw [hlong, ← hsplit] at hparse
  rw [← hsplit] at hfields
  rw [parseFront, hparse, Outcome.ok_bind]
  simp only [parseInitialFieldsChecked, hfields, Outcome.map, Outcome.ok_bind]
  rw [cutPacket_eq (by simp only [List.length_append, List.length_nil]; omega)
    (by simp only [List.length_append]; omega)]
  simp only [pnLenOf_longFirstByte .initial hrange]
  simp only [appendPayload, List.length_append, List.length_nil]
  have hoffset : header.length + (tokenLen.length + (token.length + (lengthBytes.length + 0))) =
      header.length + tokenLen.length + token.length + lengthBytes.length := by omega
  rw [hoffset, Nat.add_sub_cancel_left, hbody]
  rfl

theorem encodeLongPacket_parsed {packetType : LongPacketType} {dcid scid : ConnectionId}
    (hencode : encodeLongPacket packetType dcid scid pn largestAcked payload aeadTagLen = .ok packet)
    (hsealed : packet.Sealed aeadTagLen extent) (rest : Bytes) (localCidLen : Nat) :
    ∃ first headerLen,
      parseHeaderChecked (extent ++ rest) localCidLen =
        .ok (.long ⟨packetType, first, 1, dcid, scid, headerLen⟩) ∧
      parseLongFieldsChecked (extent ++ rest) headerLen first =
        .ok ⟨packet.pnOffset, UInt8.ofNat packet.pnLen, extent.length - packet.pnOffset⟩ ∧
      cutPacket (extent ++ rest) packet.pnOffset (extent.length - packet.pnOffset) =
        .ok (extent, rest) := by
  have hrange := packetNumberLen_range pn largestAcked
  unfold encodeLongPacket at hencode
  obtain ⟨lengthBytes, hlength, hencode⟩ := except_bind_eq_ok.mp hencode
  cases hencode
  obtain ⟨body, rfl, hbody⟩ := hsealed.split
  have hheader := encodeLongHeader_length_le packetType dcid scid
    (packetNumberLen pn largestAcked)
  have hlengthMax := le_of_encodeVarint hlength
  have hlengthLen := encodeVarint_length hlength
  have hsmall : 2 * maxVarint + 100 ≤ usizeMax := by decide
  generalize hlong : encodeLongHeader packetType dcid scid
    (packetNumberLen pn largestAcked) = header at *
  have hsplit : header ++ lengthBytes ++ body ++ rest =
      header ++ (lengthBytes ++ (body ++ rest)) := by
    simp only [List.append_assoc]
  have hparse := parseHeaderChecked_encodeLongHeader packetType dcid scid hrange
    (lengthBytes ++ (body ++ rest)) localCidLen
  have hfields := varint_decodes hlength header (body ++ rest) (by omega)
  rw [hlong, ← hsplit] at hparse
  rw [← hsplit] at hfields
  have hoffset : (header ++ lengthBytes ++ body).length - (header ++ lengthBytes).length =
      body.length := by
    rw [List.length_append, Nat.add_sub_cancel_left]
  refine ⟨_, _, hparse, ?_, ?_⟩
  · simp only [parseLongFieldsChecked, hfields, Outcome.map,
      pnLenOf_longFirstByte packetType hrange, appendPayload, encodePacketNumber, hbody,
      List.length_append, Nat.add_sub_cancel_left]
  · simp only [appendPayload, hoffset]
    apply cutPacket_eq
    · simp only [List.length_append]
    · simp only [List.length_append]
      omega

theorem parseFront_encode (hencode : spec.encode aeadTagLen = .ok packet)
    (hsealed : packet.Sealed aeadTagLen extent) (rest : Bytes) (localCidLen : Nat) :
    parseFront (extent ++ rest) localCidLen = .ok (some (spec.parsed packet extent, rest)) := by
  cases spec with
  | initial dcid scid token pn largestAcked payload =>
    exact parseFront_initial hencode hsealed rest localCidLen
  | handshake dcid scid pn largestAcked payload =>
    obtain ⟨first, headerLen, hparse, hfields, hcut⟩ :=
      encodeLongPacket_parsed hencode hsealed rest localCidLen
    rw [parseFront, hparse, Outcome.ok_bind]
    simp only [parseHandshakeFieldsChecked, hfields, hcut, Outcome.ok_bind]
    rfl
  | zeroRtt dcid scid pn largestAcked payload =>
    obtain ⟨first, headerLen, hparse, hfields, hcut⟩ :=
      encodeLongPacket_parsed hencode hsealed rest localCidLen
    rw [parseFront, hparse, Outcome.ok_bind]
    simp only [parseZeroRttFieldsChecked, hfields, hcut, Outcome.ok_bind]
    rfl

/-! ## Whole datagrams -/

structure OneRttSpec where
  dcid : ConnectionId
  spinBit : Bool
  keyPhase : Bool
  pn : Nat
  largestAcked : Nat
  payload : Bytes

def OneRttSpec.encode (spec : OneRttSpec) : EncodedPacket :=
  encodeOneRttPacket spec.dcid spec.spinBit spec.keyPhase spec.pn spec.largestAcked spec.payload

theorem parseFront_oneRtt (spec : OneRttSpec) (hsealed : spec.encode.Sealed aeadTagLen extent) :
    parseFront extent spec.dcid.len =
      .ok (some (.oneRtt spec.dcid spec.encode.pnOffset extent, [])) := by
  have hrange := packetNumberLen_range spec.pn spec.largestAcked
  have hmax : spec.dcid.len ≤ 20 := spec.dcid.length_le
  have hoffset : spec.encode.pnOffset = 1 + spec.dcid.len := by
    grind [OneRttSpec.encode, encodeOneRttPacket, appendPayload, encodeShortHeader,
      ConnectionId.len]
  obtain ⟨body, rfl, hbody⟩ := hsealed.split
  have hbodyNe : body ≠ [] := by
    grind
  rw [parseFront, parseHeaderChecked_encodeShortHeader spec.dcid _ _ hrange hbodyNe, Outcome.ok_bind,
    hoffset]
  simp only [Outcome.add_of_le (show 1 + spec.dcid.len ≤ usizeMax by unfold usizeMax; omega)]
  rfl

structure SentLong (aeadTagLen : Nat) where
  spec : LongPacketSpec
  packet : EncodedPacket
  extent : Bytes
  encode_eq : spec.encode aeadTagLen = .ok packet
  isSealed : packet.Sealed aeadTagLen extent

theorem EncodedPacket.Shaped.isSealed {payloadLen : Nat}
    (h : packet.Shaped pn largestAcked payloadLen) (tag : Bytes) :
    packet.Sealed tag.length (packet.bytes ++ tag) := by
  have hle := h.length_le
  constructor
  all_goals grind

theorem LongPacketSpec.encode_shaped (h : spec.encode aeadTagLen = .ok packet) :
    ∃ pn largestAcked payloadLen, packet.Shaped pn largestAcked payloadLen := by
  cases spec with
  | initial => exact ⟨_, _, _, encodeInitialPacket_shaped h⟩
  | handshake | zeroRtt => exact ⟨_, _, _, encodeLongPacket_shaped h⟩

def SentLong.withTag (spec : LongPacketSpec) {packet : EncodedPacket} (tag : Bytes)
    (h : spec.encode tag.length = .ok packet) : SentLong tag.length where
  spec := spec
  packet := packet
  extent := packet.bytes ++ tag
  encode_eq := h
  isSealed := by
    obtain ⟨_, _, _, hshaped⟩ := LongPacketSpec.encode_shaped h
    exact hshaped.isSealed tag

/-- A 1-RTT packet as it was sent to a receiver with connection IDs of the given length. -/
structure SentOneRtt (aeadTagLen localCidLen : Nat) where
  spec : OneRttSpec
  extent : Bytes
  isSealed : spec.encode.Sealed aeadTagLen extent
  cidLen_eq : spec.dcid.len = localCidLen

def SentLong.parsed {aeadTagLen : Nat} (sent : SentLong aeadTagLen) : ParsedPacket :=
  sent.spec.parsed sent.packet sent.extent

def SentOneRtt.parsed {aeadTagLen localCidLen : Nat} (sent : SentOneRtt aeadTagLen localCidLen) :
    ParsedPacket :=
  .oneRtt sent.spec.dcid sent.spec.encode.pnOffset sent.extent

/-- The packets one behind the other. -/
def coalesce {aeadTagLen localCidLen : Nat} (longs : List (SentLong aeadTagLen))
    (last : Option (SentOneRtt aeadTagLen localCidLen)) : Bytes :=
  (longs.map SentLong.extent).flatten ++ (last.map SentOneRtt.extent).getD []

theorem SentLong.length_pos (sent : SentLong aeadTagLen) :
    0 < sent.extent.length := by
  have hfront := parseFront_encode sent.encode_eq sent.isSealed [] 0
  cases h : sent.extent with
  | nil =>
    rw [h] at hfront
    cases hfront
  | cons b rest => exact Nat.succ_pos _

theorem SentOneRtt.length_pos (sent : SentOneRtt aeadTagLen localCidLen) :
    0 < sent.extent.length := by
  have hfront := parseFront_oneRtt sent.spec sent.isSealed
  cases h : sent.extent with
  | nil =>
    rw [h] at hfront
    cases hfront
  | cons b rest => exact Nat.succ_pos _

theorem coalesce_splits (longs : List (SentLong aeadTagLen))
    (last : Option (SentOneRtt aeadTagLen localCidLen)) :
    Items.Splits (parseFront · localCidLen) (coalesce longs last)
      (longs.map SentLong.parsed ++ (last.map SentOneRtt.parsed).toList) := by
  induction longs with
  | nil =>
    cases last with
    | none => exact .nil
    | some sent =>
      have hfront := parseFront_oneRtt sent.spec sent.isSealed
      rw [sent.cidLen_eq] at hfront
      exact .cons hfront sent.length_pos .nil
  | cons sent longs ih =>
    have hbytes : coalesce (sent :: longs) last = sent.extent ++ coalesce longs last := by
      simp [coalesce]
    have hpos := sent.length_pos
    rw [hbytes]
    apply Items.Splits.cons
    · exact parseFront_encode sent.encode_eq sent.isSealed (coalesce longs last) localCidLen
    · rw [List.length_append]
      omega
    · exact ih

/-- Coalesced packets are split again into the packets that were sent: type, connection IDs,
token, offset of the packet number, length and extent of each, in order. -/
theorem splitDatagram_coalesce {aeadTagLen localCidLen : Nat} (longs : List (SentLong aeadTagLen))
    (last : Option (SentOneRtt aeadTagLen localCidLen)) :
    splitDatagram (coalesce longs last) localCidLen =
      some (.ok (longs.map SentLong.parsed ++ (last.map SentOneRtt.parsed).toList)) :=
  Items.readAll_of_splits (coalesce_splits longs last)

/-- An Initial packet with a token, a Handshake packet and a 1-RTT packet in one datagram. -/
theorem three_packets_split :
    splitDatagram
      ([0xc0, 0, 0, 0, 1, 1, 9, 2, 7, 8, 1, 5, 4, 3, 1, 2, 0xaa] ++
        [0xe0, 0, 0, 0, 1, 1, 9, 2, 7, 8, 3, 4, 6, 0xaa] ++ [0x40, 9, 5, 1, 0xaa]) 1 =
      some (.ok [
        .initial ⟨[9], by decide⟩ ⟨[7, 8], by decide⟩ ⟨[5], 13, 1, 4⟩
          [0xc0, 0, 0, 0, 1, 1, 9, 2, 7, 8, 1, 5, 4, 3, 1, 2, 0xaa],
        .handshake ⟨[9], by decide⟩ ⟨[7, 8], by decide⟩ ⟨11, 1, 3⟩
          [0xe0, 0, 0, 0, 1, 1, 9, 2, 7, 8, 3, 4, 6, 0xaa],
        .oneRtt ⟨[9], by decide⟩ 2 [0x40, 9, 5, 1, 0xaa]]) :=
  splitDatagram_coalesce
    [.withTag (.initial ⟨[9], by decide⟩ ⟨[7, 8], by decide⟩ [5] 3 0 [1, 2]) [0xaa] rfl,
      .withTag (.handshake ⟨[9], by decide⟩ ⟨[7, 8], by decide⟩ 4 0 [6]) [0xaa] rfl]
    (some ⟨⟨⟨[9], by decide⟩, false, false, 5, 0, [1]⟩, [0x40, 9, 5, 1, 0xaa], ⟨rfl, rfl⟩, rfl⟩)

end Starfish.Quic
