import Starfish.Quic.Connection.Receive
import Starfish.Quic.FrameCodec
import Starfish.Quic.Packet.Coalesced
import Starfish.Quic.Packet.TransportParameters

/-!
# Any bytes may arrive

What a peer, or anybody on the path, sends is parsed before it is trusted. No byte string
makes a parser read outside its buffer or overflow, and none keeps one of the loops over
packets, frames and transport parameters going.
-/

namespace Starfish.Quic

open Cursor (Reads)

/-! ## Fields after a long header -/

section

variable {buf : Bytes} (hbuf : buf.length ≤ isizeMax)

include hbuf

theorem parseInitialFieldsChecked_meets {headerLen : Nat} (hheader : headerLen ≤ buf.length)
    (firstByte : UInt8) :
    (parseInitialFieldsChecked buf headerLen firstByte).Meets fun fields =>
      headerLen < fields.pnOffset ∧ fields.pnOffset ≤ buf.length ∧ fields.length ≤ maxVarint := by
  apply Outcome.Meets.map
  apply (initialFields_reads (Nat.le_refl _) buf headerLen hbuf hheader).mono
  grind

theorem parseLongFieldsChecked_meets {headerLen : Nat} (hheader : headerLen ≤ buf.length)
    (firstByte : UInt8) :
    (parseLongFieldsChecked buf headerLen firstByte).Meets fun fields =>
      headerLen < fields.pnOffset ∧ fields.pnOffset ≤ buf.length ∧ fields.length ≤ maxVarint := by
  have hlimit : isizeMax ≤ usizeMax := by decide
  apply Outcome.Meets.map
  apply (varint_reads hlimit buf headerLen hbuf hheader).mono
  grind

/-! ## Packet boundaries -/

/-- The packet in front ends behind its start and inside the buffer, whatever its length field
says. -/
theorem cutPacket_range {pnOffset length : Nat} (hoffset : 0 < pnOffset)
    (hin : pnOffset ≤ buf.length) (hlength : length ≤ maxVarint) :
    ∃ stop, 0 < stop ∧ stop ≤ buf.length ∧
      cutPacket buf pnOffset length = .ok (buf.take stop, buf.drop stop) := by
  have hmax : isizeMax + maxVarint ≤ usizeMax := by decide
  have hle : min (pnOffset + length) buf.length ≤ buf.length := Nat.min_le_right _ _
  refine ⟨min (pnOffset + length) buf.length, by omega, hle, ?_⟩
  rw [cutPacket, Outcome.add_of_le (by omega), Outcome.ok_bind]
  simp only [Outcome.range_of_le (Nat.zero_le _) hle, Outcome.range_to_end hle]
  rfl

end

def ParsedPacket.extent : ParsedPacket → Bytes
  | .initial _ _ _ extent => extent
  | .handshake _ _ _ extent => extent
  | .zeroRtt _ _ _ extent => extent
  | .oneRtt _ _ extent => extent

def IsBoundary (remaining : Bytes) (packet : ParsedPacket) (rest : Bytes) : Prop :=
  ∃ stop, 0 < stop ∧ stop ≤ remaining.length ∧ packet.extent = remaining.take stop ∧
    rest = remaining.drop stop

theorem IsBoundary.length_lt {remaining rest : Bytes} {packet : ParsedPacket}
    (h : IsBoundary remaining packet rest) : rest.length < remaining.length := by
  obtain ⟨stop, hpos, hle, -, rfl⟩ := h
  rw [List.length_drop]
  omega

section

variable {buf : Bytes} (hbuf : buf.length ≤ isizeMax) {localCidLen : Nat}
  (hcid : localCidLen + 2 ≤ usizeMax)

include hbuf

theorem cutPacket_meets {pnOffset length : Nat} (hoffset : 0 < pnOffset)
    (hin : pnOffset ≤ buf.length) (hlength : length ≤ maxVarint) {make : Bytes → ParsedPacket}
    (hmake : ∀ extent, (make extent).extent = extent) :
    (do
      let (extent, rest) ← cutPacket buf pnOffset length
      return some (make extent, rest) : Outcome QuicError (Option (ParsedPacket × Bytes))).Meets
      fun r => ∀ packet rest, r = some (packet, rest) → IsBoundary buf packet rest := by
  obtain ⟨stop, hpos, hle, hcut⟩ := cutPacket_range hbuf hoffset hin hlength
  rw [hcut, Outcome.ok_bind]
  rintro _ _ ⟨⟩
  exact ⟨stop, hpos, hle, hmake _, rfl⟩

include hcid

theorem parseFront_meets (hne : buf ≠ []) :
    (parseFront buf localCidLen).Meets fun r => ∀ packet rest, r = some (packet, rest) →
      IsBoundary buf packet rest := by
  unfold parseFront
  rw [parseHeaderChecked_eq hbuf hcid]
  apply Outcome.Meets.bind (p := fun header => parseHeader buf localCidLen = .ok header)
    (Outcome.meets_ofExcept fun _ h => h)
  intro header hparse
  cases header with
  | long h =>
    obtain ⟨hseven, hheader⟩ := parseHeader_long hparse
    cases htype : h.packetType with
    | initial =>
      simp only [htype]
      apply (parseInitialFieldsChecked_meets hbuf hheader h.firstByte).bind
      intro fields ⟨hoffset, hin, hlength⟩
      exact cutPacket_meets hbuf (by omega) hin hlength fun _ => rfl
    | handshake | zeroRtt =>
      simp only [htype]
      apply (parseLongFieldsChecked_meets hbuf hheader h.firstByte).bind
      intro fields ⟨hoffset, hin, hlength⟩
      exact cutPacket_meets hbuf (by omega) hin hlength fun _ => rfl
    | retry =>
      simp only [htype]
      nofun
  | short dcid =>
    simp only [Outcome.add_of_le (show 1 + localCidLen ≤ usizeMax by omega)]
    rintro _ _ ⟨⟩
    refine ⟨buf.length, List.length_pos_iff.mpr hne, Nat.le_refl _, ?_, ?_⟩
    · rw [List.take_length]
      rfl
    · rw [List.drop_length]
  | versionNegotiation versions => nofun

end

/-! ## Transport parameters -/

theorem decodeVarintChecked_ne_panic (buf : Bytes) : decodeVarintChecked buf ≠ .panic := by
  rw [decodeVarintChecked_eq]
  exact Outcome.ofExcept_ne_panic _

theorem varintOr_reads {limit : Nat} (hlimit : limit ≤ usizeMax) (message : String) :
    Reads limit 1 (varintOr message) (· ≤ maxVarint) := by
  apply Reads.call hlimit
  intro buf hbuf
  rw [decodeVarintChecked_eq]
  cases hvarint : decodeVarint buf with
  | error e => trivial
  | ok result =>
    obtain ⟨hvalue, hpos, hle⟩ := decodeVarint_bounds hvarint
    exact ⟨hpos, hle, hvalue⟩

theorem transportParameter_reads : Reads isizeMax 1 transportParameter fun _ => True := by
  have hmax : isizeMax + maxVarint ≤ usizeMax := by decide
  apply Reads.bind (varintOr_reads (by omega) _)
  intro id _
  apply Reads.seq (varintOr_reads (by omega) _)
  intro len hlen
  apply Reads.seq (Reads.takeBytes (by omega) _)
  intro value _
  exact Reads.pure trivial

variable (value : Bytes)

theorem decodeTransportParamValue_meets :
    (decodeTransportParamValue value).Meets fun _ => True := by
  have hne := decodeVarintChecked_ne_panic value
  unfold decodeTransportParamValue
  split
  · split <;> trivial
  · trivial
  · next hpanic => exact hne hpanic

theorem decodeCheckedValue_meets (accepted : Nat → Bool) (message : String) :
    (decodeCheckedValue value accepted message).Meets fun _ => True := by
  apply (decodeTransportParamValue_meets value).bind
  intro decoded _
  split <;> trivial

theorem decodeTransportConnectionId_meets (name : String) (value : Bytes) :
    (decodeTransportConnectionId name value).Meets fun _ => True := by
  unfold decodeTransportConnectionId
  split <;> trivial

theorem decodeResetToken_meets : (decodeResetToken value).Meets fun _ => True := by
  unfold decodeResetToken
  split <;> trivial

theorem validatePreferredAddress_meets :
    (validatePreferredAddress value).Meets fun _ => True := by
  unfold validatePreferredAddress
  split
  · trivial
  · next hlong =>
    rw [index_eq_byteAt (by omega), Outcome.ok_bind]
    split
    · trivial
    · next hcid =>
      have hmax : maxCidLen = 20 := rfl
      rw [Outcome.add_of_le (by unfold usizeMax; omega), Outcome.ok_bind]
      split <;> trivial

theorem setTransportParameter_meets (params : PeerTransportParameters) (id : Nat) (value : Bytes) :
    (setTransportParameter params id value).Meets fun _ => True := by
  unfold setTransportParameter
  split
  case h_13 => split <;> trivial
  case h_18 => trivial
  all_goals
    first
      | apply (decodeTransportConnectionId_meets _ value).bind
      | apply (decodeTransportParamValue_meets value).bind
      | apply (decodeCheckedValue_meets value _ _).bind
      | apply (decodeResetToken_meets value).bind
      | apply (validatePreferredAddress_meets value).bind
    intro _ _
    trivial

theorem nextParameter_meets {buf : Bytes} (hbuf : buf.length ≤ isizeMax) {s : ParameterState}
    (hoffset : s.offset ≤ buf.length) :
    (nextParameter buf s).Meets fun t => s.offset < t.offset ∧ t.offset ≤ buf.length := by
  apply (transportParameter_reads buf s.offset hbuf hoffset).bind
  rintro ⟨⟨id, value⟩, offset⟩ ⟨hmoved, hin, -⟩
  dsimp only
  split
  · trivial
  · apply (setTransportParameter_meets s.params id value).bind
    intro params _
    exact ⟨hmoved, hin⟩

/-- `parse_transport_parameters` ends without a panic: each turn moves the offset on, and not
beyond the end. -/
theorem parseTransportParameters_total {buf : Bytes} (hbuf : buf.length ≤ isizeMax) :
    ∃ x, parseTransportParameters buf = some x ∧ x ≠ .panic := by
  apply Loop.run_total (I := fun s : ParameterState => s.offset ≤ buf.length)
    fun s => buf.length - s.offset
  · intro s t hoffset hstep
    have hnext := nextParameter_meets hbuf hoffset
    unfold parameterStep at hstep
    split at hstep
    · split at hstep
      · next hok =>
        cases hstep
        rw [hok] at hnext
        obtain ⟨hmoved, hin⟩ := hnext
        exact ⟨hin, by omega⟩
      all_goals cases hstep
    · cases hstep
  · intro s x hoffset hstep
    have hnext := nextParameter_meets hbuf hoffset
    unfold parameterStep at hstep
    split at hstep
    · split at hstep
      · cases hstep
      · cases hstep
        nofun
      · next hpanic => exact absurd hpanic hnext.ne_panic
    · cases hstep
      nofun
  · exact Nat.zero_le _
  · exact Nat.lt_succ_of_le (Nat.sub_le _ _)

/-! ## The receive path -/

/-- The parsers of the receive path on any bytes and any length of the local connection IDs.
None reads outside the buffer or overflows, a frame takes at least one byte and at most all of
them, each packet of a datagram ends behind its start and at or before the end of what remains,
and the loops over frames, transport parameters and packets end. -/
theorem receive_parsers_total {α γ : Type} [DecidableEq α] (P : PacketProtection)
    (R : RetryIntegrity) (E : ReceiveEnv α γ) (receiver : Receiver α γ) (addr : α)
    (ecn : Option UdpEcnCodepoint) (buf : Slice) (localCidLen : UInt8) :
    parseHeaderChecked buf.bytes localCidLen.toNat ≠ .panic ∧
    (∀ h, parseHeaderChecked buf.bytes localCidLen.toNat = .ok (.long h) →
      h.headerLen ≤ buf.bytes.length) ∧
    (∀ headerLen ≤ buf.bytes.length, ∀ firstByte,
      parseInitialFieldsChecked buf.bytes headerLen firstByte ≠ .panic ∧
      parseHandshakeFieldsChecked buf.bytes headerLen firstByte ≠ .panic ∧
      parseZeroRttFieldsChecked buf.bytes headerLen firstByte ≠ .panic) ∧
    (decodeFrame buf.bytes).Meets (fun (_, consumed) =>
      1 ≤ consumed ∧ consumed ≤ buf.bytes.length) ∧
    (∃ frames, decodeFrames buf.bytes = some frames ∧ frames ≠ .panic) ∧
    (∃ params, parseTransportParameters buf.bytes = some params ∧ params ≠ .panic) ∧
    (buf.bytes ≠ [] → (parseFront buf.bytes localCidLen.toNat).Meets fun r =>
      ∀ packet rest, r = some (packet, rest) → IsBoundary buf.bytes packet rest) ∧
    (∃ packets, splitDatagram buf.bytes localCidLen.toNat = some packets ∧ packets ≠ .panic) ∧
    (∀ rest next, receiver.processNext P R E buf.bytes addr ecn = (.next rest, next) →
      ∃ stop, 0 < stop ∧ stop ≤ buf.bytes.length ∧ rest = buf.bytes.drop stop) ∧
    (Receiver.processPackets P R E addr ecn buf.bytes.length receiver buf.bytes).isSome := by
  have hbuf := buf.length_le
  have hcid : localCidLen.toNat + 2 ≤ usizeMax := by
    have hlt := localCidLen.toNat_lt
    unfold usizeMax
    omega
  refine ⟨?_, ?_, ?_, ?_, ?_, parseTransportParameters_total hbuf, parseFront_meets hbuf hcid, ?_,
    fun _ _ => Receiver.processNext_next,
    Receiver.processPackets_isSome P R E receiver buf.bytes addr ecn (Nat.le_refl _)⟩
  · rw [parseHeaderChecked_eq hbuf hcid]
    exact Outcome.ofExcept_ne_panic _
  · intro h hparse
    rw [parseHeaderChecked_eq hbuf hcid] at hparse
    exact (parseHeader_long (Outcome.ofExcept_ok_iff.mp hparse)).2
  · intro headerLen hheader firstByte
    have hlong := (parseLongFieldsChecked_meets hbuf hheader firstByte).ne_panic
    exact ⟨(parseInitialFieldsChecked_meets hbuf hheader firstByte).ne_panic, hlong, hlong⟩
  · apply (decodeFrame_meets (Nat.le_refl _) hbuf).mono
    rintro ⟨frame, consumed⟩ ⟨hpos, hin, -⟩
    exact ⟨hpos, hin⟩
  · obtain ⟨frames, hframes, hmeets⟩ := decodeFrames_total (Nat.le_refl _) hbuf
    exact ⟨frames, hframes, hmeets.ne_panic⟩
  · obtain ⟨packets, hpackets, hmeets⟩ := Items.readAll_total isizeMax (fun _ => True)
      (fun remaining hne hlen => (parseFront_meets hlen hcid hne).mono fun _ hfront packet rest hr =>
        ⟨(hfront packet rest hr).length_lt, trivial⟩) hbuf
    exact ⟨packets, hpackets, hmeets.ne_panic⟩

end Starfish.Quic
