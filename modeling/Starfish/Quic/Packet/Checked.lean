import Starfish.Lib.Cursor
import Starfish.Quic.Packet.Types

/-!
# Parsers with their panics

The header parsers as the code runs them: every index, every slice and every addition of
lengths is checked, and panics outside the buffer or beyond 64 bits. On buffers that a
64-bit machine can hold none of them panics, and they compute the same as the parsers
without checks.
-/

namespace Starfish.Quic

/-- The largest size of a slice. -/
def isizeMax : Nat := 2 ^ 63 - 1

/-- Bytes in memory: a slice has at most `isizeMax` bytes. -/
structure Slice where
  bytes : Bytes
  length_le : bytes.length ≤ isizeMax

/-! ## Integers -/

def decodeVarintChecked (buf : Bytes) : Outcome QuicError (Nat × Nat) :=
  if buf.isEmpty then .error .bufferTooSmall
  else do
    let first ← Outcome.index buf 0
    let len := 1 <<< (first >>> 6).toNat
    if buf.length < len then .error .bufferTooSmall
    else
      match len with
      | 1 | 2 | 4 | 8 =>
        let rest ← Outcome.indices buf 1 (len - 1)
        return (beNat ((first &&& 0x3f) :: rest), len)
      | _ => .panic

theorem taggedLen_cases : ∀ tag < 4, 1 <<< tag = 1 ∨ 1 <<< tag = 2 ∨ 1 <<< tag = 4 ∨ 1 <<< tag = 8 := by
  decide

theorem decodeVarintChecked_eq (buf : Bytes) :
    decodeVarintChecked buf = .ofExcept (decodeVarint buf) := by
  cases buf with
  | nil => rfl
  | cons first rest =>
    have hindex : (Outcome.index (first :: rest) 0 : Outcome QuicError UInt8) = .ok first := rfl
    obtain ⟨htag, -⟩ := firstByte_bounds first
    simp only [decodeVarintChecked, decodeVarint, hindex, Outcome.ok_bind, List.length_cons]
    generalize (first >>> 6).toNat = tag at *
    by_cases hshort : rest.length + 1 < 1 <<< tag
    · simp [hshort, Outcome.ofExcept]
    · have hindices : (Outcome.indices (first :: rest) 1 (1 <<< tag - 1) :
          Outcome QuicError Bytes) = .ok (rest.take (1 <<< tag - 1)) := by
        grind [Outcome.indices_of_le]
      rw [hindices]
      obtain hlen | hlen | hlen | hlen := taggedLen_cases tag htag
      all_goals
        rw [hlen] at hshort ⊢
        simp only [hshort]
        rfl

/-- The integer at the offset. -/
def varint : Cursor UInt8 QuicError Nat := .call decodeVarintChecked

variable {limit value start : Nat} {data : Bytes}

theorem varint_reads (hlimit : limit ≤ usizeMax) : Cursor.Reads limit 1 varint (· ≤ maxVarint) := by
  apply Cursor.Reads.call hlimit
  intro buf _
  rw [decodeVarintChecked_eq]
  cases h : decodeVarint buf with
  | error e => trivial
  | ok result =>
    obtain ⟨hvalue, hpos, hle⟩ := decodeVarint_bounds h
    exact ⟨hpos, hle, hvalue⟩

variable {bytes : Bytes}

theorem varint_decodes (h : encodeVarint value = .ok bytes) :
    Cursor.Decodes varint bytes value := by
  apply Cursor.Decodes.call
  intro _ after
  rw [decodeVarintChecked_eq, decodeVarint_encodeVarint h]
  rfl

theorem decodes_varint {α : Type} {f : Nat → Cursor UInt8 QuicError α}
    {values : List Nat} {a : α} (h : encodeVarints (value :: values) = .ok bytes)
    (hf : ∀ rest, encodeVarints values = .ok rest → Cursor.Decodes (f value) (rest ++ data) a) :
    Cursor.Decodes (varint >>= f) (bytes ++ data) a := by
  obtain ⟨head, tail, hhead, htail, rfl⟩ := encodeVarints_cons h
  rw [List.append_assoc]
  exact (varint_decodes hhead).bind (hf tail htail)

theorem decodes_done {α : Type} {r : Cursor UInt8 QuicError α} {a : α}
    (h : encodeVarints [] = .ok bytes) (hr : Cursor.Decodes r data a) :
    Cursor.Decodes r (bytes ++ data) a := by
  cases h
  exact hr

/-! ## Headers -/

def readVersionsChecked (buf : Bytes) (offset : Nat) : Outcome QuicError (List Nat) :=
  if usizeMax < offset + 4 then .panic
  else if offset + 4 ≤ buf.length then
    (Outcome.indices buf offset 4).bind fun version =>
      (readVersionsChecked buf (offset + 4)).map (beNat version :: ·)
  else .ok []
termination_by buf.length - offset

variable {buf : Bytes}

theorem readVersionsChecked_eq (hbuf : buf.length ≤ isizeMax) (offset : Nat)
    (hoffset : offset ≤ buf.length) :
    readVersionsChecked buf offset = .ok (readVersions (buf.drop offset)) := by
  fun_induction readVersionsChecked buf offset with
  | case1 offset hpanic =>
    unfold isizeMax at hbuf
    unfold usizeMax at hpanic
    omega
  | case2 offset _ hin ih =>
    have hdrop : ∃ a b c d, buf.drop offset = a :: b :: c :: d :: buf.drop (offset + 4) := by
      have hcons : ∀ i, i < buf.length → ∃ x, buf.drop i = x :: buf.drop (i + 1) :=
        fun i hi => ⟨buf[i], List.drop_eq_getElem_cons hi⟩
      obtain ⟨a, ha⟩ := hcons offset (by omega)
      obtain ⟨b, hb⟩ := hcons (offset + 1) (by omega)
      obtain ⟨c, hc⟩ := hcons (offset + 2) (by omega)
      grind
    obtain ⟨a, b, c, d, hdrop⟩ := hdrop
    rw [Outcome.indices_of_le hin, ih hin, hdrop]
    rfl
  | case3 offset _ hout =>
    have hlen : (buf.drop offset).length < 4 := by
      rw [List.length_drop]
      omega
    generalize buf.drop offset = tail at hlen
    match tail, hlen with
    | [], _ | [_], _ | [_, _], _ | [_, _, _], _ => rfl

/-- Where a connection ID of length `len` at `start` ends, if the buffer has room for it and
for `extra` more bytes. -/
def cidStop (buf : Bytes) (start len extra : Nat) (message : String) : Outcome QuicError Nat :=
  -- The length of the buffer is compared only for an acceptable length of the ID.
  if maxCidLen < len then .error (.invalidPacket message)
  else do
    let stop ← Outcome.add start len
    let need ← Outcome.add stop extra
    if buf.length < need then .error (.invalidPacket message) else .ok stop

def parseLongHeaderChecked (buf : Bytes) : Outcome QuicError PacketHeader :=
  if buf.length < 7 then .error (.invalidPacket "long header too short")
  else do
    let firstByte ← Outcome.index buf 0
    let version ← Outcome.indices buf 1 4
    let dcidLen ← Outcome.index buf 5
    let dcidEnd ← cidStop buf 6 dcidLen.toNat 1 "invalid DCID length"
    let dcid ← Outcome.range buf 6 dcidEnd
    let scidLen ← Outcome.index buf dcidEnd
    let scidStart ← Outcome.add 7 dcidLen.toNat
    let headerLen ← cidStop buf scidStart scidLen.toNat 0 "invalid SCID length"
    let scid ← Outcome.range buf scidStart headerLen
    if beNat version = 0 then
      (readVersionsChecked buf headerLen).map .versionNegotiation
    else
      (Outcome.ofExcept (LongPacketType.fromBits ((firstByte &&& 0x30) >>> 4))).map
        fun packetType => .long ⟨packetType, firstByte, beNat version, .fromSlice dcid,
          .fromSlice scid, headerLen⟩

def parseShortHeaderChecked (buf : Bytes) (localCidLen : Nat) : Outcome QuicError PacketHeader := do
  let headerLen ← Outcome.add 1 localCidLen
  let need ← Outcome.add headerLen 1
  if buf.length < need then .error (.invalidPacket "short header too short")
  else
    let dcid ← Outcome.range buf 1 headerLen
    return .short (.fromSlice dcid)

def parseHeaderChecked (buf : Bytes) (localCidLen : Nat) : Outcome QuicError PacketHeader :=
  if buf.isEmpty then .error (.invalidPacket "empty packet")
  else do
    let firstByte ← Outcome.index buf 0
    if isLongHeader firstByte then parseLongHeaderChecked buf
    else parseShortHeaderChecked buf localCidLen

theorem cidStop_eq {len extra : Nat} (hstart : start + extra ≤ 2 ^ 32) (message : String) :
    cidStop buf start len extra message =
      if maxCidLen < len ∨ buf.length < start + len + extra then .error (.invalidPacket message)
      else .ok (start + len) := by
  unfold cidStop
  by_cases hlen : maxCidLen < len
  · simp [hlen]
  · have hmax : len ≤ 20 := Nat.le_of_not_lt hlen
    rw [if_neg hlen, Outcome.add_of_le (by unfold usizeMax; omega), Outcome.ok_bind,
      Outcome.add_of_le (by unfold usizeMax; omega), Outcome.ok_bind]
    simp [hlen]

theorem index_eq_byteAt {i : Nat} (h : i < buf.length) :
    (Outcome.index buf i : Outcome QuicError UInt8) = .ok (byteAt buf i) := by
  grind [Outcome.index_of_lt, byteAt]

theorem range_eq_slice {stop : Nat} (hstart : start ≤ stop) (hstop : stop ≤ buf.length) :
    (Outcome.range buf start stop : Outcome QuicError Bytes) = .ok (slice buf start stop) :=
  Outcome.range_of_le hstart hstop

theorem parseLongHeaderChecked_eq (hbuf : beNat (slice buf 1 5) ≠ 0 ∨ buf.length ≤ isizeMax) :
    parseLongHeaderChecked buf = .ofExcept (parseLongHeader buf) := by
  unfold parseLongHeaderChecked parseLongHeader
  by_cases hshort : buf.length < 7
  · simp [hshort, Outcome.ofExcept]
  · have hversion : (Outcome.indices buf 1 4 : Outcome QuicError Bytes) = .ok (slice buf 1 5) :=
      Outcome.indices_of_le (by omega)
    have hdcidLen := (byteAt buf 5).toNat_lt
    simp only [hshort, if_false, index_eq_byteAt (show 0 < buf.length by omega), hversion,
      index_eq_byteAt (show 5 < buf.length by omega), Outcome.ok_bind,
      cidStop_eq (show 6 + 1 ≤ 2 ^ 32 by decide)]
    generalize (byteAt buf 5).toNat = dcidLen at *
    by_cases hdcid : maxCidLen < dcidLen ∨ buf.length < 6 + dcidLen + 1
    · simp only [hdcid, if_true, Outcome.ofExcept, Outcome.error_bind]
    · simp only [hdcid, if_false, Outcome.ok_bind,
        range_eq_slice (show 6 ≤ 6 + dcidLen by omega) (show 6 + dcidLen ≤ buf.length by omega),
        index_eq_byteAt (show 6 + dcidLen < buf.length by omega),
        Outcome.add_of_le (show 7 + dcidLen ≤ usizeMax by unfold usizeMax; omega),
        cidStop_eq (show 7 + dcidLen + 0 ≤ 2 ^ 32 by omega), Nat.add_zero]
      generalize (byteAt buf (6 + dcidLen)).toNat = scidLen
      by_cases hscid : maxCidLen < scidLen ∨ buf.length < 7 + dcidLen + scidLen
      · simp only [hscid, if_true, Outcome.ofExcept, Outcome.error_bind]
      · simp only [hscid, if_false, Outcome.ok_bind,
          range_eq_slice (show 7 + dcidLen ≤ 7 + dcidLen + scidLen by omega)
            (show 7 + dcidLen + scidLen ≤ buf.length by omega)]
        split
        · next hzero =>
          rw [readVersionsChecked_eq (hbuf.resolve_left (not_not_intro hzero)) _ (by omega)]
          rfl
        · cases LongPacketType.fromBits ((byteAt buf 0 &&& 0x30) >>> 4) <;> rfl

/-- `parse_header` never panics, and computes what the model without checks says. -/
theorem parseHeaderChecked_eq (hbuf : buf.length ≤ isizeMax) {localCidLen : Nat}
    (hcid : localCidLen + 2 ≤ usizeMax) :
    parseHeaderChecked buf localCidLen = .ofExcept (parseHeader buf localCidLen) := by
  unfold parseHeaderChecked parseHeader
  cases buf with
  | nil => rfl
  | cons b rest =>
    have hfirst : (Outcome.index (b :: rest) 0 : Outcome QuicError UInt8) =
      .ok (byteAt (b :: rest) 0) := rfl
    simp only [List.isEmpty_cons, Bool.false_eq_true, if_false, hfirst, Outcome.ok_bind]
    split
    · exact parseLongHeaderChecked_eq (.inr hbuf)
    · simp only [parseShortHeaderChecked, parseShortHeader,
        Outcome.add_of_le (show 1 + localCidLen ≤ usizeMax by omega),
        Outcome.add_of_le (show 1 + localCidLen + 1 ≤ usizeMax by omega), Outcome.ok_bind]
      split
      · rfl
      · rw [range_eq_slice (by omega) (by omega)]
        rfl

/-! ## Fields after a long header -/

structure InitialPacket where
  token : Bytes
  pnOffset : Nat
  pnLen : UInt8
  length : Nat
deriving DecidableEq, Repr

structure LongPacket where
  pnOffset : Nat
  pnLen : UInt8
  length : Nat
deriving DecidableEq, Repr

def pnLenOf (firstByte : UInt8) : UInt8 := (firstByte &&& 0x03) + 1

def initialFields : Cursor UInt8 QuicError (Bytes × Nat) := do
  let tokenLen ← varint
  let token ← .takeBytes tokenLen (.invalidPacket "initial packet truncated at token")
  let length ← varint
  return (token, length)

def parseInitialFieldsChecked (buf : Bytes) (headerLen : Nat) (firstByte : UInt8) :
    Outcome QuicError InitialPacket :=
  (initialFields buf headerLen).map fun ((token, length), offset) =>
    ⟨token, offset, pnLenOf firstByte, length⟩

def parseLongFieldsChecked (buf : Bytes) (headerLen : Nat) (firstByte : UInt8) :
    Outcome QuicError LongPacket :=
  (varint buf headerLen).map fun (length, offset) => ⟨offset, pnLenOf firstByte, length⟩

def parseHandshakeFieldsChecked (buf : Bytes) (headerLen : Nat) (firstByte : UInt8) :
    Outcome QuicError LongPacket :=
  parseLongFieldsChecked buf headerLen firstByte

def parseZeroRttFieldsChecked (buf : Bytes) (headerLen : Nat) (firstByte : UInt8) :
    Outcome QuicError LongPacket :=
  parseLongFieldsChecked buf headerLen firstByte

theorem initialFields_reads (hlimit : limit ≤ isizeMax) :
    Cursor.Reads limit 1 initialFields fun (_, length) => length ≤ maxVarint := by
  have hmax : limit + maxVarint ≤ usizeMax := by
    unfold isizeMax at hlimit
    unfold maxVarint usizeMax
    omega
  apply Cursor.Reads.bind (varint_reads (by omega))
  intro tokenLen htokenLen
  apply Cursor.Reads.seq (Cursor.Reads.takeBytes (by omega) _)
  intro token _
  apply Cursor.Reads.seq (varint_reads (by omega))
  intro length hlength
  exact Cursor.Reads.pure hlength

/-! ## Without checks -/

end Starfish.Quic
