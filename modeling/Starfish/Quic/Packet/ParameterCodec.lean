import Starfish.Quic.Packet.TransportParameters

/-!
# Transport parameters survive the handshake

Every set of parameters within the limits is encoded, and the peer reads the same values:
those on the wire, those left out because they equal their defaults, and nothing from the
parameter that is to be ignored.
-/

namespace Starfish.Quic

open Cursor (Decodes)

/-- The values that may be sent. -/
structure TransportParameters.Valid (params : TransportParameters) : Prop where
  maxIdleTimeoutMs_le : params.maxIdleTimeoutMs ≤ maxVarint
  maxUdpPayloadSize_le : params.maxUdpPayloadSize ≤ maxVarint
  le_maxUdpPayloadSize : minMaxUdpPayloadSize ≤ params.maxUdpPayloadSize
  initialMaxData_le : params.initialMaxData ≤ maxVarint
  initialMaxStreamDataBidiLocal_le : params.initialMaxStreamDataBidiLocal ≤ maxVarint
  initialMaxStreamDataBidiRemote_le : params.initialMaxStreamDataBidiRemote ≤ maxVarint
  initialMaxStreamDataUni_le : params.initialMaxStreamDataUni ≤ maxVarint
  initialMaxStreamsBidi_le : params.initialMaxStreamsBidi ≤ maxVarint
  initialMaxStreamsUni_le : params.initialMaxStreamsUni ≤ maxVarint
  ackDelayExponent_le : params.ackDelayExponent ≤ maxAckDelayExponent
  maxAckDelayMs_le : params.maxAckDelayMs ≤ maxMaxAckDelayMs
  preferredAddress_ok : ∀ address ∈ params.preferredAddress, validatePreferredAddress address = .ok ()
  activeConnectionIdLimit_le : params.activeConnectionIdLimit ≤ maxVarint
  le_activeConnectionIdLimit : 2 ≤ params.activeConnectionIdLimit

/-! ## One parameter -/

variable {bytes : Bytes} {value : Nat}

theorem varintLen_eq (h : encodeVarint value = .ok bytes) :
    bytes.length = varintLen value := by
  unfold encodeVarint at h
  unfold varintLen
  split at h
  · cases h
  · split at h
    · next h1 =>
      cases h
      simp [h1]
    · next h1 =>
      split at h
      · next h2 =>
        cases h
        simp [h1, h2]
      · next h2 =>
        split at h
        · next h4 =>
          cases h
          simp [h1, h2, h4]
        · next h4 =>
          cases h
          simp [h1, h2, h4]

theorem encodeTransportParam_eq (h : encodeVarint value = .ok bytes) (id : Nat) :
    encodeTransportParam id value = encodeTransportBytesParam id bytes := by
  rw [encodeTransportParam, encodeTransportBytesParam, ← varintLen_eq h]
  simp only [encodeVarints, h]
  cases encodeVarint id with
  | error e => rfl
  | ok head =>
    cases encodeVarint bytes.length with
    | error e => rfl
    | ok tail =>
      simp [bind, Except.bind, pure, Except.pure, Outcome.ofExcept, Outcome.bind]

theorem decodeTransportParamValue_encode (h : encodeVarint value = .ok bytes) :
    decodeTransportParamValue bytes = .ok value := by
  have hdecode := decodeVarint_encodeVarint h []
  grind [decodeTransportParamValue, decodeVarintChecked_eq, Outcome.ofExcept]

theorem varintOr_decodes (h : encodeVarint value = .ok bytes) (message : String) :
    Decodes (varintOr message) bytes value := by
  apply Decodes.call
  intro _ after
  rw [decodeVarintChecked_eq, decodeVarint_encodeVarint h]
  rfl

theorem transportParameter_decodes {id : Nat} {value : Bytes}
    (h : encodeTransportBytesParam id value = .ok bytes) :
    Decodes transportParameter bytes (id, value) := by
  unfold encodeTransportBytesParam at h
  obtain ⟨head, hhead, h⟩ := Outcome.bind_eq_ok.mp h
  rw [Outcome.ofExcept_ok_iff] at hhead
  cases h
  obtain ⟨idBytes, tail, hid, htail, rfl⟩ := encodeVarints_cons hhead
  obtain ⟨lenBytes, last, hlen, hlast, rfl⟩ := encodeVarints_cons htail
  cases hlast
  rw [List.append_nil, List.append_assoc]
  apply (varintOr_decodes hid _).bind
  apply (varintOr_decodes hlen _).bind
  exact (Decodes.takeBytes _).bind_last (Decodes.pure _)

theorem encodeTransportBytesParam_of_le {id : Nat} {value : Bytes} (hid : id ≤ maxVarint)
    (hvalue : value.length ≤ 61) :
    ∃ bytes, encodeTransportBytesParam id value = .ok bytes ∧ 0 < bytes.length ∧
      bytes.length ≤ 77 := by
  have hmax : 61 ≤ maxVarint := by decide
  have hle : ∀ v ∈ [id, value.length], v ≤ maxVarint := by
    grind
  obtain ⟨head, hhead⟩ := encodeVarints_of_le hle
  obtain ⟨first, tail, hfirst, -, rfl⟩ := encodeVarints_cons hhead
  have hlen := encodeVarints_length hhead
  have hpos := encodeVarint_length hfirst
  simp only [List.length_append, List.length_cons, List.length_nil] at hlen
  refine ⟨first ++ tail ++ value, ?_, ?_, ?_⟩
  · rw [encodeTransportBytesParam, hhead]
    rfl
  · simp only [List.length_append]
    omega
  · simp only [List.length_append]
    omega

/-! ## From the encoder to the parser -/

/-- A piece of the encoding for the parameter `id` that turns what the parser has read from `p`
into `q`: nothing, or a parameter with that effect. -/
def Transfers (id : Nat) (piece : Outcome QuicError Bytes) (p q : TransportParameters) : Prop :=
  (piece = .ok [] ∧ p = q) ∨
    ∃ value bytes, piece = .ok bytes ∧ encodeTransportBytesParam id value = .ok bytes ∧
      0 < bytes.length ∧ bytes.length ≤ 77 ∧ setTransportParameter p id value = .ok q

/-- A sequence of pieces. -/
inductive TransfersAll : List (Nat × Outcome QuicError Bytes) → TransportParameters →
    TransportParameters → Prop
  | nil (p : TransportParameters) : TransfersAll [] p p
  | cons {id : Nat} {piece : Outcome QuicError Bytes} {p q r : TransportParameters}
      {rest : List (Nat × Outcome QuicError Bytes)} :
      Transfers id piece p q → TransfersAll rest q r → TransfersAll ((id, piece) :: rest) p r

theorem parameterStep_next {id : Nat} {value : Bytes} {p q : TransportParameters} {seen : List Nat}
    (hencode : encodeTransportBytesParam id value = .ok bytes) (hpos : 0 < bytes.length)
    (hset : setTransportParameter p id value = .ok q) (hnew : id ∉ seen) (before after : Bytes)
    (hsize : before.length + bytes.length ≤ usizeMax) :
    parameterStep (before ++ (bytes ++ after)) ⟨before.length, p, seen⟩ =
      .inl ⟨(before ++ bytes).length, q, id :: seen⟩ := by
  have hread := transportParameter_decodes hencode before after hsize
  have hin : before.length < (before ++ (bytes ++ after)).length := by
    simp only [List.length_append]
    omega
  simp only [parameterStep, hin, nextParameter, hread, Outcome.ok_bind, hnew, hset]
  rw [List.length_append]
  rfl

theorem TransfersAll.run {pieces : List (Nat × Outcome QuicError Bytes)} {p q : TransportParameters}
    (h : TransfersAll pieces p q) {seen : List Nat} (hnodup : (pieces.map Prod.fst).Nodup)
    (hnew : ∀ id ∈ pieces.map Prod.fst, id ∉ seen) :
    ∃ bytes, concatAll (pieces.map Prod.snd) = .ok bytes ∧ bytes.length ≤ 77 * pieces.length ∧
      ∀ (before : Bytes) (fuel : Nat), before.length + bytes.length ≤ usizeMax →
        bytes.length < fuel →
        Loop.run (parameterStep (before ++ bytes)) fuel ⟨before.length, p, seen⟩ = some (.ok q) := by
  induction h generalizing seen with
  | nil p =>
    refine ⟨[], rfl, Nat.zero_le _, fun before fuel _ hfuel => ?_⟩
    obtain ⟨fuel, rfl⟩ : ∃ n, fuel = n + 1 := ⟨fuel - 1, by omega⟩
    apply Loop.run_done
    simp [parameterStep]
  | @cons id piece p q r rest hpiece _ ih =>
    rw [List.map_cons, List.nodup_cons] at hnodup
    rw [List.map_cons, List.forall_mem_cons] at hnew
    obtain ⟨rfl, rfl⟩ | ⟨value, bytes, rfl, hencode, hpos, hlen, hset⟩ := hpiece
    · obtain ⟨tail, htail, hlen, hrun⟩ := ih hnodup.2 hnew.2
      refine ⟨tail, ?_, ?_, hrun⟩
      · rw [List.map_cons, concatAll, htail]
        rfl
      · rw [List.length_cons]
        omega
    · have hnewRest : ∀ i ∈ rest.map Prod.fst, i ∉ id :: seen := by
        grind
      obtain ⟨tail, htail, htailLen, hrun⟩ := ih hnodup.2 hnewRest
      refine ⟨bytes ++ tail, ?_, ?_, fun before fuel hsize hfuel => ?_⟩
      · rw [List.map_cons, concatAll, htail]
        rfl
      · rw [List.length_append, List.length_cons]
        omega
      · rw [List.length_append] at hsize hfuel
        obtain ⟨fuel, rfl⟩ : ∃ n, fuel = n + 1 := ⟨fuel - 1, by omega⟩
        rw [Loop.run_next (parameterStep_next hencode hpos hset hnew.1 before tail (by omega)),
          ← List.append_assoc]
        grind

/-! ## The pieces -/

section

variable {id : Nat} {p q : TransportParameters}

theorem transfers_bytes {value : Bytes} (hid : id ≤ maxVarint) (hvalue : value.length ≤ 61)
    (hset : setTransportParameter p id value = .ok q) :
    Transfers id (encodeTransportBytesParam id value) p q := by
  obtain ⟨bytes, hbytes, hpos, hlen⟩ := encodeTransportBytesParam_of_le hid hvalue
  exact .inr ⟨value, bytes, hbytes, hbytes, hpos, hlen, hset⟩

theorem transfers_integer (hid : id ≤ maxVarint) (hvalue : value ≤ maxVarint)
    (hset : ∀ bytes, decodeTransportParamValue bytes = .ok value →
      setTransportParameter p id bytes = .ok q) :
    Transfers id (encodeTransportParam id value) p q := by
  obtain ⟨bytes, hbytes⟩ := encodeVarint_of_le hvalue
  have hlen := encodeVarint_length hbytes
  rw [encodeTransportParam_eq hbytes id]
  exact transfers_bytes hid (by omega) (hset bytes (decodeTransportParamValue_encode hbytes))

theorem transfers_onlyIf {condition : Bool} {piece : Outcome QuicError Bytes}
    (hsome : condition = true → Transfers id piece p q) (hnone : condition = false → p = q) :
    Transfers id (onlyIf condition piece) p q := by
  cases condition with
  | true => exact hsome rfl
  | false => exact .inl ⟨rfl, hnone rfl⟩

theorem transfers_forSome {α : Type} {value : Option α} {piece : α → Outcome QuicError Bytes}
    (hsome : ∀ a, value = some a → Transfers id (piece a) p q) (hnone : value = none → p = q) :
    Transfers id (forSome value piece) p q := by
  cases value with
  | some a => exact hsome a rfl
  | none => exact .inl ⟨rfl, hnone rfl⟩

theorem transfers_cid {cid : Option ConnectionId} (hid : id ≤ maxVarint)
    (hsome : ∀ c, cid = some c → setTransportParameter p id c.bytes = .ok q)
    (hnone : cid = none → p = q) :
    Transfers id (forSome cid fun c => encodeTransportBytesParam id c.bytes) p q := by
  apply transfers_forSome _ hnone
  intro c hc
  have hle : c.bytes.length ≤ 20 := c.length_le
  exact transfers_bytes hid (by omega) (hsome c hc)

end

theorem decodeTransportConnectionId_bytes (name : String) (cid : ConnectionId) :
    decodeTransportConnectionId name cid.bytes = .ok cid := by
  have hle := cid.length_le
  rw [decodeTransportConnectionId, if_neg (by omega), fromSlice_bytes]

theorem decodeCheckedValue_of_accepted {accepted : Nat → Bool}
    (h : decodeTransportParamValue bytes = .ok value) (haccepted : accepted value = true)
    (message : String) : decodeCheckedValue bytes accepted message = .ok value := by
  rw [decodeCheckedValue, h, Outcome.ok_bind, if_pos haccepted]
  rfl

theorem validatePreferredAddress_length {address : Bytes}
    (h : validatePreferredAddress address = .ok ()) : address.length ≤ 61 := by
  grind [validatePreferredAddress, index_eq_byteAt, Outcome.ok_bind, maxCidLen, Outcome.add_of_le,
    usizeMax]

def parameterPieces (params : TransportParameters) (counter : Nat) :
    List (Nat × Outcome QuicError Bytes) :=
  let grease := (nextGreaseTransportParameter counter).1
  [(tpOriginalDestinationConnectionId, forSome params.originalDestinationConnectionId fun cid =>
      encodeTransportBytesParam tpOriginalDestinationConnectionId cid.bytes),
    (tpMaxIdleTimeout, onlyIf (0 < params.maxIdleTimeoutMs)
      (encodeTransportParam tpMaxIdleTimeout params.maxIdleTimeoutMs)),
    (tpStatelessResetToken, forSome params.statelessResetToken fun token =>
      encodeTransportBytesParam tpStatelessResetToken token.bytes),
    (tpMaxUdpPayloadSize, onlyIf (params.maxUdpPayloadSize != defaultMaxUdpPayloadSize)
      (encodeTransportParam tpMaxUdpPayloadSize params.maxUdpPayloadSize)),
    (tpInitialMaxData, encodeTransportParam tpInitialMaxData params.initialMaxData),
    (tpInitialMaxStreamDataBidiLocal,
      encodeTransportParam tpInitialMaxStreamDataBidiLocal params.initialMaxStreamDataBidiLocal),
    (tpInitialMaxStreamDataBidiRemote,
      encodeTransportParam tpInitialMaxStreamDataBidiRemote params.initialMaxStreamDataBidiRemote),
    (tpInitialMaxStreamDataUni,
      encodeTransportParam tpInitialMaxStreamDataUni params.initialMaxStreamDataUni),
    (tpInitialMaxStreamsBidi,
      encodeTransportParam tpInitialMaxStreamsBidi params.initialMaxStreamsBidi),
    (tpInitialMaxStreamsUni,
      encodeTransportParam tpInitialMaxStreamsUni params.initialMaxStreamsUni),
    (tpAckDelayExponent, onlyIf (params.ackDelayExponent != 3)
      (encodeTransportParam tpAckDelayExponent params.ackDelayExponent)),
    (tpMaxAckDelay, onlyIf (params.maxAckDelayMs != defaultMaxAckDelayMs)
      (encodeTransportParam tpMaxAckDelay params.maxAckDelayMs)),
    (tpDisableActiveMigration, onlyIf params.disableActiveMigration
      (encodeTransportBytesParam tpDisableActiveMigration [])),
    (tpPreferredAddress, forSome params.preferredAddress fun address => do
      validatePreferredAddress address
      encodeTransportBytesParam tpPreferredAddress address),
    (tpActiveConnectionIdLimit,
      encodeTransportParam tpActiveConnectionIdLimit params.activeConnectionIdLimit),
    (tpInitialSourceConnectionId, forSome params.initialSourceConnectionId fun cid =>
      encodeTransportBytesParam tpInitialSourceConnectionId cid.bytes),
    (tpRetrySourceConnectionId, forSome params.retrySourceConnectionId fun cid =>
      encodeTransportBytesParam tpRetrySourceConnectionId cid.bytes),
    (grease.1, encodeTransportBytesParam grease.1 grease.2)]

variable (counter : Nat)

theorem grease_bounds :
    58 ≤ (nextGreaseTransportParameter counter).1.1 ∧
      (nextGreaseTransportParameter counter).1.1 ≤ maxVarint := by
  grind [maxVarint, nextGreaseTransportParameter]

theorem greaseBytes_length (n : Nat) (x : BitVec 64) : (greaseBytes n x).length = n := by
  induction n generalizing x with
  | zero => rfl
  | succ n ih => rw [greaseBytes, List.length_cons, ih]

theorem parameterPieces_nodup (params : TransportParameters) (counter : Nat) :
    ((parameterPieces params counter).map Prod.fst).Nodup := by
  have hgrease := (grease_bounds counter).1
  have hids : (parameterPieces params counter).map Prod.fst =
      List.range 17 ++ [(nextGreaseTransportParameter counter).1.1] := rfl
  rw [hids, List.nodup_append]
  refine ⟨List.nodup_range, by simp, ?_⟩
  intro id hid grease hmem heq
  rw [List.mem_range] at hid
  rw [List.mem_singleton] at hmem
  omega

/-! ## Each parameter -/

section

variable {params : TransportParameters} (h : params.Valid) (p : TransportParameters)

theorem transfers_originalDestinationConnectionId (hp : p.originalDestinationConnectionId = none) :
    Transfers tpOriginalDestinationConnectionId
      (forSome params.originalDestinationConnectionId fun cid =>
        encodeTransportBytesParam tpOriginalDestinationConnectionId cid.bytes)
      p { p with originalDestinationConnectionId := params.originalDestinationConnectionId } := by
  apply transfers_cid (by decide)
  · intro cid hcid
    change _ >>= _ = _
    rw [decodeTransportConnectionId_bytes, hcid]
    rfl
  · intro hnone
    rw [hnone, ← hp]

theorem transfers_initialSourceConnectionId (hp : p.initialSourceConnectionId = none) :
    Transfers tpInitialSourceConnectionId
      (forSome params.initialSourceConnectionId fun cid =>
        encodeTransportBytesParam tpInitialSourceConnectionId cid.bytes)
      p { p with initialSourceConnectionId := params.initialSourceConnectionId } := by
  apply transfers_cid (by decide)
  · intro cid hcid
    change _ >>= _ = _
    rw [decodeTransportConnectionId_bytes, hcid]
    rfl
  · intro hnone
    rw [hnone, ← hp]

theorem transfers_retrySourceConnectionId (hp : p.retrySourceConnectionId = none) :
    Transfers tpRetrySourceConnectionId
      (forSome params.retrySourceConnectionId fun cid =>
        encodeTransportBytesParam tpRetrySourceConnectionId cid.bytes)
      p { p with retrySourceConnectionId := params.retrySourceConnectionId } := by
  apply transfers_cid (by decide)
  · intro cid hcid
    change _ >>= _ = _
    rw [decodeTransportConnectionId_bytes, hcid]
    rfl
  · intro hnone
    rw [hnone, ← hp]

theorem transfers_statelessResetToken (hp : p.statelessResetToken = none) :
    Transfers tpStatelessResetToken
      (forSome params.statelessResetToken fun token =>
        encodeTransportBytesParam tpStatelessResetToken token.bytes)
      p { p with statelessResetToken := params.statelessResetToken } := by
  apply transfers_forSome
  · intro token htoken
    have hlen := token.length_eq
    apply transfers_bytes (by decide) (by omega)
    change _ >>= _ = _
    rw [decodeResetToken, dif_pos hlen, htoken]
    rfl
  · intro hnone
    rw [hnone, ← hp]

include h in
theorem transfers_preferredAddress (hp : p.preferredAddress = none) :
    Transfers tpPreferredAddress
      (forSome params.preferredAddress fun address => do
        validatePreferredAddress address
        encodeTransportBytesParam tpPreferredAddress address)
      p { p with preferredAddress := params.preferredAddress } := by
  apply transfers_forSome
  · intro address haddress
    have hvalid := h.preferredAddress_ok address haddress
    rw [hvalid, Outcome.ok_bind]
    apply transfers_bytes (by decide) (validatePreferredAddress_length hvalid)
    change _ >>= _ = _
    rw [hvalid, haddress]
    rfl
  · intro hnone
    rw [hnone, ← hp]

theorem transfers_disableActiveMigration (hp : p.disableActiveMigration = false) :
    Transfers tpDisableActiveMigration
      (onlyIf params.disableActiveMigration (encodeTransportBytesParam tpDisableActiveMigration []))
      p { p with disableActiveMigration := params.disableActiveMigration } := by
  apply transfers_onlyIf
  · intro htrue
    apply transfers_bytes (by decide) (by decide)
    rw [htrue]
    rfl
  · intro hfalse
    rw [hfalse, ← hp]

include h

theorem transfers_maxIdleTimeoutMs (hp : p.maxIdleTimeoutMs = 0) :
    Transfers tpMaxIdleTimeout
      (onlyIf (0 < params.maxIdleTimeoutMs)
        (encodeTransportParam tpMaxIdleTimeout params.maxIdleTimeoutMs))
      p { p with maxIdleTimeoutMs := params.maxIdleTimeoutMs } := by
  apply transfers_onlyIf
  · intro _
    apply transfers_integer (by decide) h.maxIdleTimeoutMs_le
    intro bytes hbytes
    change _ >>= _ = _
    rw [hbytes]
    rfl
  · intro hzero
    have hzero : params.maxIdleTimeoutMs = 0 := by simpa using hzero
    rw [hzero, ← hp]

theorem transfers_maxUdpPayloadSize (hp : p.maxUdpPayloadSize = defaultMaxUdpPayloadSize) :
    Transfers tpMaxUdpPayloadSize
      (onlyIf (params.maxUdpPayloadSize != defaultMaxUdpPayloadSize)
        (encodeTransportParam tpMaxUdpPayloadSize params.maxUdpPayloadSize))
      p { p with maxUdpPayloadSize := params.maxUdpPayloadSize } := by
  apply transfers_onlyIf
  · intro _
    apply transfers_integer (by decide) h.maxUdpPayloadSize_le
    intro bytes hbytes
    change _ >>= _ = _
    rw [decodeCheckedValue_of_accepted hbytes (by
      simpa using h.le_maxUdpPayloadSize)]
    rfl
  · intro hdefault
    rw [show params.maxUdpPayloadSize = p.maxUdpPayloadSize by rw [hp]; simpa using hdefault]

theorem transfers_ackDelayExponent (hp : p.ackDelayExponent = 3) :
    Transfers tpAckDelayExponent
      (onlyIf (params.ackDelayExponent != 3)
        (encodeTransportParam tpAckDelayExponent params.ackDelayExponent))
      p { p with ackDelayExponent := params.ackDelayExponent } := by
  apply transfers_onlyIf
  · intro _
    apply transfers_integer (by decide) (Nat.le_trans h.ackDelayExponent_le (by decide))
    intro bytes hbytes
    change _ >>= _ = _
    rw [decodeCheckedValue_of_accepted hbytes (by
      simpa using h.ackDelayExponent_le)]
    rfl
  · intro hdefault
    rw [show params.ackDelayExponent = p.ackDelayExponent by rw [hp]; simpa using hdefault]

theorem transfers_maxAckDelayMs (hp : p.maxAckDelayMs = defaultMaxAckDelayMs) :
    Transfers tpMaxAckDelay
      (onlyIf (params.maxAckDelayMs != defaultMaxAckDelayMs)
        (encodeTransportParam tpMaxAckDelay params.maxAckDelayMs))
      p { p with maxAckDelayMs := params.maxAckDelayMs } := by
  apply transfers_onlyIf
  · intro _
    apply transfers_integer (by decide) (Nat.le_trans h.maxAckDelayMs_le (by decide))
    intro bytes hbytes
    change _ >>= _ = _
    rw [decodeCheckedValue_of_accepted hbytes (by
      simpa using h.maxAckDelayMs_le)]
    rfl
  · intro hdefault
    rw [show params.maxAckDelayMs = p.maxAckDelayMs by rw [hp]; simpa using hdefault]

theorem transfers_activeConnectionIdLimit :
    Transfers tpActiveConnectionIdLimit
      (encodeTransportParam tpActiveConnectionIdLimit params.activeConnectionIdLimit)
      p { p with activeConnectionIdLimit := params.activeConnectionIdLimit } := by
  apply transfers_integer (by decide) h.activeConnectionIdLimit_le
  intro bytes hbytes
  change _ >>= _ = _
  rw [decodeCheckedValue_of_accepted hbytes (by
    simpa using h.le_activeConnectionIdLimit)]
  rfl

end

theorem transfers_grease (p : TransportParameters) :
    Transfers (nextGreaseTransportParameter counter).1.1
      (encodeTransportBytesParam (nextGreaseTransportParameter counter).1.1
        (nextGreaseTransportParameter counter).1.2) p p := by
  have hbounds := grease_bounds counter
  apply transfers_bytes hbounds.2
  · simp only [nextGreaseTransportParameter, greaseBytes_length]
    omega
  · generalize (nextGreaseTransportParameter counter).1.1 = id at hbounds
    unfold setTransportParameter
    split
    all_goals first | rfl | (exfalso; revert hbounds; decide)

theorem transfers_plain {id : Nat} {p : TransportParameters} {set : Nat → TransportParameters}
    (hid : id ≤ maxVarint) (hvalue : value ≤ maxVarint)
    (hset : ∀ bytes, setTransportParameter p id bytes = (decodeTransportParamValue bytes).bind fun v => .ok (set v))
    :
    Transfers id (encodeTransportParam id value) p (set value) := by
  apply transfers_integer hid hvalue
  intro bytes hbytes
  rw [hset, hbytes]
  rfl

theorem parameterPieces_transfer {params : TransportParameters} (h : params.Valid) (counter : Nat) :
    TransfersAll (parameterPieces params counter) {} params := by
  apply TransfersAll.cons (transfers_originalDestinationConnectionId _ rfl)
  apply TransfersAll.cons (transfers_maxIdleTimeoutMs h _ rfl)
  apply TransfersAll.cons (transfers_statelessResetToken _ rfl)
  apply TransfersAll.cons (transfers_maxUdpPayloadSize h _ rfl)
  apply TransfersAll.cons (transfers_plain (by decide) h.initialMaxData_le fun _ => rfl)
  apply TransfersAll.cons (transfers_plain (by decide) h.initialMaxStreamDataBidiLocal_le fun _ => rfl)
  apply TransfersAll.cons (transfers_plain (by decide) h.initialMaxStreamDataBidiRemote_le fun _ => rfl)
  apply TransfersAll.cons (transfers_plain (by decide) h.initialMaxStreamDataUni_le fun _ => rfl)
  apply TransfersAll.cons (transfers_plain (by decide) h.initialMaxStreamsBidi_le fun _ => rfl)
  apply TransfersAll.cons (transfers_plain (by decide) h.initialMaxStreamsUni_le fun _ => rfl)
  apply TransfersAll.cons (transfers_ackDelayExponent h _ rfl)
  apply TransfersAll.cons (transfers_maxAckDelayMs h _ rfl)
  apply TransfersAll.cons (transfers_disableActiveMigration _ rfl)
  apply TransfersAll.cons (transfers_preferredAddress h _ rfl)
  apply TransfersAll.cons (transfers_activeConnectionIdLimit h _)
  apply TransfersAll.cons (transfers_initialSourceConnectionId _ rfl)
  apply TransfersAll.cons (transfers_retrySourceConnectionId _ rfl)
  apply TransfersAll.cons (transfers_grease counter _)
  exact TransfersAll.nil params

/-- Parameters within the limits are encoded, whatever the parameter to be ignored is, and the
peer reads the same value of every field. -/
theorem transport_parameters_round_trip {params : LocalTransportParameters} (h : params.Valid)
    (counter : Nat) :
    ∃ bytes, encodeTransportParameters params counter = .ok bytes ∧
      parseTransportParameters bytes = some (.ok params) := by
  have hnodup := parameterPieces_nodup params counter
  obtain ⟨bytes, hbytes, hlen, hrun⟩ :=
    (parameterPieces_transfer h counter).run hnodup fun _ _ => List.not_mem_nil
  have hsize : 77 * (parameterPieces params counter).length ≤ usizeMax := by
    simp only [parameterPieces, List.length_cons]
    decide
  refine ⟨bytes, hbytes, hrun [] (bytes.length + 1) ?_ (Nat.lt_succ_self _)⟩
  rw [List.length_nil]
  omega

def sampleParameters : LocalTransportParameters where
  originalDestinationConnectionId := some ⟨[1, 2, 3, 4, 5, 6, 7, 8], by decide⟩
  maxIdleTimeoutMs := 30000
  statelessResetToken := some ⟨List.replicate 16 7, rfl⟩
  maxUdpPayloadSize := 1472
  initialMaxData := 1048576
  initialMaxStreamsBidi := 100
  ackDelayExponent := 5
  disableActiveMigration := true
  preferredAddress := some (List.replicate 41 0)
  initialSourceConnectionId := some ⟨[9, 9], by decide⟩

theorem sampleParameters_valid : sampleParameters.Valid := by
  constructor
  case preferredAddress_ok =>
    intro address haddress
    cases haddress
    decide
  all_goals decide

theorem sampleParameters_round_trip :
    ∃ bytes, encodeTransportParameters sampleParameters 1000 = .ok bytes ∧
      parseTransportParameters bytes = some (.ok sampleParameters) :=
  transport_parameters_round_trip sampleParameters_valid 1000

end Starfish.Quic
