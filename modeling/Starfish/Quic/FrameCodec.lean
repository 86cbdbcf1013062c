import Starfish.Quic.FrameDecode

/-!
# The frame codec

Well-formed frames can be encoded, and decoding the bytes returns the frames. In the other
direction every frame that the decoder returns is well formed, so it can be encoded and
decoded again.
-/

namespace Starfish.Quic

open Cursor (Decodes Reads)

/-! ## Well-formed frames -/

def Descending : Nat → List AckRange → Prop
  | _, [] => True
  | bound, range :: rest =>
    range.start ≤ range.stop ∧ range.stop + 2 ≤ bound ∧ Descending range.start rest

instance decidableDescending : ∀ bound ranges, Decidable (Descending bound ranges)
  | _, [] => isTrue trivial
  | _, range :: rest =>
    have := decidableDescending range.start rest
    inferInstanceAs (Decidable (_ ∧ _ ∧ _))

def EcnCounts.WellFormed (counts : EcnCounts) : Prop :=
  counts.ect0 ≤ maxVarint ∧ counts.ect1 ≤ maxVarint ∧ counts.ce ≤ maxVarint

/-- The ranges are not empty, descend from the largest acknowledged number and do not touch. -/
structure AckFrame.WellFormed (frame : AckFrame) : Prop where
  largest_le : frame.largestAcknowledged ≤ maxVarint
  delay_le : frame.ackDelay ≤ maxVarint
  first_eq : frame.ranges.head?.map AckRange.stop = some frame.largestAcknowledged
  descending : Descending (frame.largestAcknowledged + 2) frame.ranges
  ecn_le : ∀ counts ∈ frame.ecn, counts.WellFormed

/-- Every integer and every length can be encoded, and the parts of fixed size have that size. -/
def Frame.WellFormed : Frame → Prop
  | .padding | .ping | .handshakeDone => True
  | .ack frame => frame.WellFormed
  | .resetStream streamId applicationErrorCode finalSize =>
    streamId ≤ maxVarint ∧ applicationErrorCode ≤ maxVarint ∧ finalSize ≤ maxVarint
  | .stopSending streamId applicationErrorCode =>
    streamId ≤ maxVarint ∧ applicationErrorCode ≤ maxVarint
  | .crypto frame => frame.offset ≤ maxVarint ∧ frame.data.length ≤ maxVarint
  | .newToken token => token.length ≤ maxVarint
  | .stream frame =>
    frame.streamId ≤ maxVarint ∧ frame.offset ≤ maxVarint ∧ frame.data.length ≤ maxVarint
  | .maxData maximum | .dataBlocked maximum | .maxStreams _ maximum | .streamsBlocked _ maximum =>
    maximum ≤ maxVarint
  | .maxStreamData streamId maximum | .streamDataBlocked streamId maximum =>
    streamId ≤ maxVarint ∧ maximum ≤ maxVarint
  | .newConnectionId sequenceNumber retirePriorTo connectionId statelessResetToken =>
    sequenceNumber ≤ maxVarint ∧ retirePriorTo ≤ maxVarint ∧
      (1 ≤ connectionId.length ∧ connectionId.length ≤ maxCidLen) ∧
      statelessResetToken.length = 16
  | .retireConnectionId sequenceNumber => sequenceNumber ≤ maxVarint
  | .pathChallenge data | .pathResponse data => data.length = 8
  | .connectionClose isTransport errorCode frameType reason =>
    errorCode ≤ maxVarint ∧ frameType.isSome = isTransport ∧
      (∀ field ∈ frameType, field ≤ maxVarint) ∧ reason.length ≤ maxVarint

/-! ## Frames read back -/

variable {value : Nat} {connectionId token : Bytes} {frames : List Frame}

theorem decodes_orInvalidFrame {x : Option Nat} (h : x = some value)
    (message : String) : Decodes (orInvalidFrame x message) [] value := by
  subst h
  exact Decodes.lift value

variable {bytes : Bytes} {bound : Nat} {ranges : List AckRange}

theorem ackRanges_decodes (hbound : bound ≤ maxVarint) (hdesc : Descending bound ranges)
    (h : encodeVarints (AckFrame.laterRanges bound ranges) = .ok bytes) :
    Decodes (ackRanges ranges.length bound) bytes ranges := by
  induction ranges generalizing bound bytes with
  | nil =>
    cases h
    exact Decodes.pure []
  | cons range rest ih =>
    obtain ⟨hrange, hgap, hrest⟩ := hdesc
    have hmax : maxVarint + 2 ≤ u64Max := by decide
    rw [← List.append_nil bytes]
    apply decodes_varint h
    intro _ h
    apply decodes_varint h
    intro tail h
    rw [List.append_nil]
    apply Decodes.bind_nil
      (decodes_orInvalidFrame (checkedAdd_of_le (by omega)) _)
    apply Decodes.bind_nil
      (decodes_orInvalidFrame (checkedSub_of_le (by omega)) _)
    rw [show bound - (bound - range.stop - 2 + 2) = range.stop by omega]
    apply Decodes.bind_nil
      (decodes_orInvalidFrame (checkedSub_of_le (by omega)) _)
    rw [show range.stop - (range.stop - range.start) = range.start by omega,
      ← List.append_nil tail]
    exact (ih (by omega) hrest h).bind (Decodes.pure _)

def ecnFields : Option EcnCounts → List Nat
  | some counts => [counts.ect0, counts.ect1, counts.ce]
  | none => []

theorem AckFrame.fields_cons (largest delay : Nat) (first : AckRange) (rest : List AckRange)
    (ecn : Option EcnCounts) :
    AckFrame.fields ⟨largest, delay, first :: rest, ecn⟩ =
      (if ecn.isSome then 0x03 else 0x02) :: largest :: delay :: rest.length ::
        (largest - first.start) :: (laterRanges first.start rest ++ ecnFields ecn) := by
  cases ecn <;> rfl

theorem ackEcn_decodes {ecn : Option EcnCounts} (h : encodeVarints (ecnFields ecn) = .ok bytes) :
    Decodes (ackEcn ecn.isSome) bytes ecn := by
  rw [← List.append_nil bytes]
  cases ecn with
  | none => exact decodes_done h (Decodes.pure none)
  | some counts =>
    apply decodes_varint h
    intro _ h
    apply decodes_varint h
    intro _ h
    apply decodes_varint h
    intro _ h
    exact decodes_done h (Decodes.pure _)

theorem ackFrame_decodes {frame : AckFrame} (hwf : frame.WellFormed)
    (h : encodeVarints frame.fields.tail = .ok bytes) :
    Decodes (ackFrame frame.ecn.isSome) bytes frame := by
  obtain ⟨hlargest, hdelay, hfirst, hdesc, hecn⟩ := hwf
  obtain ⟨largest, delay, ranges, ecn⟩ := frame
  cases ranges with
  | nil => cases hfirst
  | cons first rest =>
    obtain rfl : first.stop = largest := Option.some.inj hfirst
    obtain ⟨hrange, -, hrest⟩ := hdesc
    rw [← List.append_nil bytes]
    apply decodes_varint h
    intro _ h
    apply decodes_varint h
    intro _ h
    apply decodes_varint h
    intro _ h
    apply decodes_varint h
    intro tail h
    obtain ⟨later, counts, hlater, hcounts, rfl⟩ := encodeVarints_append h
    apply Decodes.bind_nil
      (decodes_orInvalidFrame (checkedSub_of_le (Nat.sub_le _ _)) _)
    rw [show first.stop - (first.stop - first.start) = first.start by omega, List.append_assoc]
    apply Decodes.bind (ackRanges_decodes (Nat.le_trans hrange hlargest) hrest hlater)
    exact (ackEcn_decodes hcounts).bind (Decodes.pure _)

theorem laterRanges_length (hdesc : Descending bound ranges)
    (h : encodeVarints (AckFrame.laterRanges bound ranges) = .ok bytes) : bytes.length ≤ bound := by
  induction ranges generalizing bound bytes with
  | nil =>
    cases h
    exact Nat.zero_le _
  | cons range rest ih =>
    obtain ⟨hrange, hgap, hrest⟩ := hdesc
    obtain ⟨gap, tail, hgapBytes, htail, rfl⟩ := encodeVarints_cons h
    obtain ⟨len, later, hlenBytes, hlater, rfl⟩ := encodeVarints_cons htail
    have hgapLen := encodeVarint_length hgapBytes
    have hlen := encodeVarint_length hlenBytes
    grind

theorem Descending.length_le (h : Descending bound ranges) : ranges.length ≤ bound := by
  induction ranges generalizing bound with
  | nil => exact Nat.zero_le _
  | cons range rest ih =>
    obtain ⟨hrange, hgap, hrest⟩ := h
    grind

theorem laterRanges_le (hbound : bound ≤ maxVarint) (hdesc : Descending bound ranges) :
    ∀ value ∈ AckFrame.laterRanges bound ranges, value ≤ maxVarint := by
  induction ranges generalizing bound with
  | nil => exact fun _ hmem => (nomatch hmem)
  | cons range rest ih =>
    obtain ⟨hrange, hgap, hrest⟩ := hdesc
    simp only [AckFrame.laterRanges, List.forall_mem_cons]
    exact ⟨by omega, by omega, ih (by omega) hrest⟩

/-- The encoding of a frame: it starts with a type other than PADDING, is short enough for the
offsets of a 64-bit machine, and is read back. -/
structure Frame.Readable (frame : Frame) (bytes : Bytes) : Prop where
  encode_eq : frame.encode = .ok bytes
  head_ne : ∃ first rest, bytes = first :: rest ∧ first ≠ 0
  length_le : bytes.length ≤ usizeMax
  decodes : Decodes typedFrame bytes frame

variable {rest : Bytes} {values : List Nat}

theorem encodeVarints_typed {frameType : Nat} (htype : frameType < 0x40)
    (h : encodeVarints values = .ok rest) :
    encodeVarints (frameType :: values) = .ok (lowByte frameType :: rest) := by
  have hbyte : encodeVarint frameType = .ok [lowByte frameType] := by
    rw [encodeVarint, if_neg (by unfold maxVarint; omega), if_pos htype]
  rw [encodeVarints, hbyte, h]
  rfl

variable {frame : Frame} (frameType : Nat)

theorem Frame.readable (values : List Nat) (data : Bytes) (htype : 0 < frameType ∧ frameType < 0x40)
    (hvalues : ∀ value ∈ values, value ≤ maxVarint)
    (hlength : ∀ rest, encodeVarints values = .ok rest → rest.length + data.length < usizeMax)
    (hencode : ∀ rest, encodeVarints (frameType :: values) = .ok rest → frame.encode = .ok (rest ++ data))
    (hfields : ∀ rest, encodeVarints values = .ok rest → Decodes (frameFields frameType) (rest ++ data) frame)
    :
    ∃ bytes, frame.Readable bytes := by
  obtain ⟨rest, hrest⟩ := encodeVarints_of_le hvalues
  have htyped := encodeVarints_typed htype.2 hrest
  refine ⟨lowByte frameType :: (rest ++ data), hencode _ htyped, ⟨_, _, rfl, ?_⟩, ?_, ?_⟩
  · intro hzero
    have hnat := congrArg UInt8.toNat hzero
    rw [lowByte_toNat] at hnat
    simp at hnat
    omega
  · grind
  · exact decodes_varint htyped fun _ h => by
      cases hrest.symm.trans h
      exact hfields rest hrest

variable {data : Bytes}

theorem short_length (hcount : values.length ≤ 4) (hdata : data.length ≤ maxVarint + 37)
    (h : encodeVarints values = .ok rest) :
    rest.length + data.length < usizeMax := by
  have hlen := encodeVarints_length h
  have hmax : maxVarint + 100 < usizeMax := by decide
  omega

theorem encodeVarints_then (h : encodeVarints values = .ok rest) :
    (do let head ← encodeVarints values; return head ++ data) =
      (.ok (rest ++ data) : Except QuicError Bytes) := by
  rw [h]
  rfl

theorem AckFrame.WellFormed.readable {frame : AckFrame} (h : frame.WellFormed) :
    ∃ bytes, (Frame.ack frame).Readable bytes := by
  obtain ⟨largest, delay, ranges, ecn⟩ := frame
  cases ranges with
  | nil => cases h.first_eq
  | cons first rest =>
    obtain rfl : first.stop = largest := Option.some.inj h.first_eq
    obtain ⟨hrange, -, hrest⟩ := h.descending
    have hmax : 2 * maxVarint + 100 < usizeMax := by decide
    have hlargest : first.stop ≤ maxVarint := h.largest_le
    have hlater := laterRanges_le (by omega) hrest
    have hcount := hrest.length_le
    have hecn : ∀ value ∈ ecnFields ecn, value ≤ maxVarint := by
      cases ecn with
      | none => exact fun _ hmem => (nomatch hmem)
      | some counts =>
        obtain ⟨h0, h1, h2⟩ := h.ecn_le counts rfl
        simp only [ecnFields, List.forall_mem_cons]
        exact ⟨h0, h1, h2, fun _ hmem => (nomatch hmem)⟩
    have hfields := AckFrame.fields_cons first.stop delay first rest ecn
    apply Frame.readable (if ecn.isSome then 0x03 else 0x02) (first.stop :: delay :: rest.length ::
      (first.stop - first.start) :: (laterRanges first.start rest ++ ecnFields ecn)) []
    · split <;> decide
    · grind [cases WellFormed]
    · intro bytes hbytes
      obtain ⟨b1, r1, h1, hr1, rfl⟩ := encodeVarints_cons hbytes
      obtain ⟨b2, r2, h2, hr2, rfl⟩ := encodeVarints_cons hr1
      obtain ⟨b3, r3, h3, hr3, rfl⟩ := encodeVarints_cons hr2
      obtain ⟨b4, r4, h4, hr4, rfl⟩ := encodeVarints_cons hr3
      obtain ⟨b5, b6, h5, h6, rfl⟩ := encodeVarints_append hr4
      have l1 := encodeVarint_length h1
      have l2 := encodeVarint_length h2
      have l3 := encodeVarint_length h3
      have l4 := encodeVarint_length h4
      have l5 := laterRanges_length hrest h5
      have l6 := encodeVarints_length h6
      have hcounts : (ecnFields ecn).length ≤ 3 := by cases ecn <;> simp [ecnFields]
      simp only [List.length_append, List.length_nil]
      omega
    · intro bytes hbytes
      rw [List.append_nil]
      exact hbytes
    · intro bytes hbytes
      have hdecodes := ackFrame_decodes h (by rw [hfields, List.tail_cons]; exact hbytes)
      cases ecn <;> exact hdecodes.nested.bind (Decodes.pure _)

theorem Frame.readable_integers (values : List Nat) (htype : 0 < frameType ∧ frameType < 0x40)
    (hvalues : ∀ value ∈ values, value ≤ maxVarint) (hcount : values.length ≤ 4)
    (hencode : frame.encode = encodeVarints (frameType :: values))
    (hfields : ∀ rest, encodeVarints values = .ok rest → Decodes (frameFields frameType) (rest ++ []) frame)
    :
    ∃ bytes, frame.Readable bytes := by
  apply Frame.readable frameType values [] htype hvalues
  · exact fun _ => short_length hcount (Nat.zero_le _)
  · intro rest h
    rw [hencode, h, List.append_nil]
  · exact hfields

theorem readable_one (make : Nat → Frame) (frameType : Nat)
    (htype : 0 < frameType ∧ frameType < 0x40) (hvalue : value ≤ maxVarint)
    (hencode : (make value).encode = encodeVarints [frameType, value])
    (hfields : frameFields frameType = varint >>= fun v => pure (make v)) :
    ∃ bytes, (make value).Readable bytes := by
  apply Frame.readable_integers frameType [value] htype (by simpa using hvalue) (by simp) hencode
  grind [decodes_varint, decodes_done, Decodes.pure]

theorem readable_two {v w : Nat} (make : Nat → Nat → Frame) (frameType : Nat)
    (htype : 0 < frameType ∧ frameType < 0x40) (hv : v ≤ maxVarint) (hw : w ≤ maxVarint)
    (hencode : (make v w).encode = encodeVarints [frameType, v, w])
    (hfields : frameFields frameType = varint >>= fun v => varint >>= fun w => pure (make v w)) :
    ∃ bytes, (make v w).Readable bytes := by
  apply Frame.readable_integers frameType [v, w] htype (by simpa using ⟨hv, hw⟩) (by simp) hencode
  grind [decodes_varint, decodes_done, Decodes.pure]

theorem readable_path (make : Bytes → Frame) (frameType : Nat) {e : QuicError}
    (htype : 0 < frameType ∧ frameType < 0x40) (hdata : data.length = 8)
    (hencode : (make data).encode = do let head ← encodeVarints [frameType]; return head ++ data)
    (hfields : frameFields frameType = Cursor.takeBytes 8 e >>= fun data => pure (make data)) :
    ∃ bytes, (make data).Readable bytes := by
  apply Frame.readable frameType [] data htype (fun _ hmem => (nomatch hmem))
    (fun _ => short_length (by simp) (by omega))
  · intro rest h
    rw [hencode, h]
    rfl
  · intro rest h
    rw [hfields, ← hdata]
    exact decodes_done h ((Decodes.takeBytes _).bind_last (Decodes.pure _))

theorem streamFlags : ∀ fin : Bool, ∀ typeByte : UInt8, typeByte = (if fin then 0x0f else 0x0e) →
    (typeByte &&& 0x04 != 0) = true ∧ (typeByte &&& 0x02 != 0) = true ∧
      (typeByte &&& 0x01 != 0) = fin := by
  rintro fin _ rfl
  cases fin <;> decide

theorem streamFrame_decodes {frame : StreamFrame} {typeByte : UInt8}
    (htype : typeByte = if frame.fin then 0x0f else 0x0e)
    (h : encodeVarints [frame.streamId, frame.offset, frame.data.length] = .ok rest) :
    Decodes (streamFrame typeByte) (rest ++ frame.data) frame := by
  obtain ⟨streamId, offset, fin, data⟩ := frame
  simp only [streamFrame, streamFlags fin typeByte htype]
  apply decodes_varint h
  intro _ h
  obtain ⟨head, tail, hhead, htail, rfl⟩ := encodeVarints_cons h
  rw [List.append_assoc]
  have hoffset : Decodes (streamOffset true) head offset := varint_decodes hhead
  apply Decodes.bind hoffset
  have hdata : Decodes (streamData true) (tail ++ data) data :=
    decodes_varint htail fun _ h => decodes_done h (Decodes.takeBytes _)
  exact hdata.bind_last (Decodes.pure _)

theorem StreamFrame.readable {frame : StreamFrame} (h : (Frame.stream frame).WellFormed) :
    ∃ bytes, (Frame.stream frame).Readable bytes := by
  obtain ⟨hid, hoffset, hdata⟩ := h
  apply Frame.readable (if frame.fin then 0x0f else 0x0e)
    [frame.streamId, frame.offset, frame.data.length] frame.data (by split <;> decide)
    (by simpa using ⟨hid, hoffset, hdata⟩) (fun _ => short_length (by simp) (by omega))
    (fun _ => encodeVarints_then)
  intro rest hrest
  cases hfin : frame.fin
  all_goals
    have hdecodes := streamFrame_decodes rfl hrest
    rw [hfin] at hdecodes
    exact hdecodes.nested.bind_last (Decodes.pure _)

theorem cidAndToken_decodes (htoken : token.length = 16) :
    Decodes (cidAndToken connectionId.length) (connectionId ++ token) (connectionId, token) := by
  apply Decodes.ensure _ (by rw [List.length_append, htoken])
  apply Decodes.bind Decodes.bytes
  rw [← htoken]
  exact Decodes.bytes.bind_last (Decodes.pure _)

theorem newConnectionId_readable {seq retire : Nat}
    (h : (Frame.newConnectionId seq retire connectionId token).WellFormed) :
    ∃ bytes, (Frame.newConnectionId seq retire connectionId token).Readable bytes := by
  obtain ⟨hseq, hretire, hcid, htoken⟩ := h
  have hmax : maxCidLen = 20 := rfl
  have hbyte : (lowByte connectionId.length).toNat = connectionId.length := by
    rw [lowByte_toNat]
    omega
  apply Frame.readable 0x18 [seq, retire] ([lowByte connectionId.length] ++ (connectionId ++ token))
    (by decide) (by simpa using ⟨hseq, hretire⟩)
  · intro rest
    apply short_length (by simp)
    grind
  · intro rest hrest
    rw [Frame.encode, hrest]
    simp [pure, Except.pure, bind, Except.bind]
  · intro rest hrest
    apply decodes_varint hrest
    intro _ h
    apply decodes_varint h
    intro _ h
    apply decodes_done h
    apply (Decodes.byte _ _).bind
    rw [hbyte, if_pos hcid]
    exact (cidAndToken_decodes htoken).bind_last (Decodes.pure _)

theorem connectionClose_readable {isTransport : Bool} {errorCode : Nat} {frameType : Option Nat}
    {reason : Bytes} (h : (Frame.connectionClose isTransport errorCode frameType reason).WellFormed) :
    ∃ bytes, (Frame.connectionClose isTransport errorCode frameType reason).Readable bytes := by
  obtain ⟨hcode, hsome, hfield, hreason⟩ := h
  cases frameType with
  | none =>
    obtain rfl : false = isTransport := hsome
    apply Frame.readable 0x1d [errorCode, reason.length] reason (by decide)
      (by simpa using ⟨hcode, hreason⟩) (fun _ => short_length (by simp) (by omega))
      (fun _ => encodeVarints_then)
    intro rest hrest
    have htype : Decodes (closeFrameType false) [] none := Decodes.pure none
    exact decodes_varint hrest fun _ h => htype.bind_nil <|
      decodes_varint h fun _ h => decodes_done h ((Decodes.takeBytes _).bind_last (Decodes.pure _))
  | some field =>
    obtain rfl : true = isTransport := hsome
    apply Frame.readable 0x1c [errorCode, field, reason.length] reason (by decide)
      (by simpa using ⟨hcode, hfield field rfl, hreason⟩)
      (fun _ => short_length (by simp) (by omega)) (fun _ => encodeVarints_then)
    intro rest hrest
    apply decodes_varint hrest
    intro _ h
    obtain ⟨head, tail, hhead, htail, rfl⟩ := encodeVarints_cons h
    have htype : Decodes (closeFrameType true) head (some field) :=
      (varint_decodes hhead).bind_last (Decodes.pure _)
    rw [List.append_assoc]
    exact htype.bind <| decodes_varint htail fun _ h =>
      decodes_done h ((Decodes.takeBytes _).bind_last (Decodes.pure _))

theorem Frame.WellFormed.readable (h : frame.WellFormed) (hpad : frame ≠ .padding) :
    ∃ bytes, frame.Readable bytes := by
  cases frame with
  | padding => exact absurd rfl hpad
  | ping =>
    apply Frame.readable_integers 0x01 [] (by decide) (fun _ hmem => (nomatch hmem)) (by decide) rfl
    exact fun _ h => decodes_done h (Decodes.pure _)
  | ack frame => exact AckFrame.WellFormed.readable h
  | resetStream streamId applicationErrorCode finalSize =>
    apply Frame.readable_integers 0x04 [streamId, applicationErrorCode, finalSize] (by decide)
      (by simpa [Frame.WellFormed] using h) (by simp) rfl
    exact fun _ h => decodes_varint h fun _ h => decodes_varint h fun _ h =>
      decodes_varint h fun _ h => decodes_done h (Decodes.pure _)
  | stopSending streamId applicationErrorCode =>
    exact readable_two .stopSending 0x05 (by decide) h.1 h.2 rfl rfl
  | crypto frame =>
    obtain ⟨hoffset, hdata⟩ := h
    apply Frame.readable 0x06 [frame.offset, frame.data.length] frame.data (by decide)
      (by simpa using ⟨hoffset, hdata⟩) (fun _ => short_length (by simp) (by omega))
      (fun _ => encodeVarints_then)
    intro rest hrest
    have hdecodes : Decodes cryptoFrame (rest ++ frame.data) frame :=
      decodes_varint hrest fun _ h => decodes_varint h fun _ h =>
        decodes_done h ((Decodes.takeBytes _).bind_last (Decodes.pure _))
    exact hdecodes.nested.bind_last (Decodes.pure _)
  | newToken token =>
    apply Frame.readable 0x07 [token.length] token (by decide)
      (by simpa [Frame.WellFormed] using h)
      (fun _ => short_length (by simp) (Nat.le_trans h (Nat.le_add_right _ _)))
      (fun _ => encodeVarints_then)
    exact fun _ h => decodes_varint h fun _ h =>
      decodes_done h ((Decodes.takeBytes _).bind_last (Decodes.pure _))
  | stream frame => exact StreamFrame.readable h
  | maxData maximumData => exact readable_one .maxData 0x10 (by decide) h rfl rfl
  | maxStreamData streamId maximumStreamData =>
    exact readable_two .maxStreamData 0x11 (by decide) h.1 h.2 rfl rfl
  | maxStreams bidirectional maximumStreams =>
    cases bidirectional
    · exact readable_one (.maxStreams false) 0x13 (by decide) h rfl rfl
    · exact readable_one (.maxStreams true) 0x12 (by decide) h rfl rfl
  | dataBlocked maximumData => exact readable_one .dataBlocked 0x14 (by decide) h rfl rfl
  | streamDataBlocked streamId maximumStreamData =>
    exact readable_two .streamDataBlocked 0x15 (by decide) h.1 h.2 rfl rfl
  | streamsBlocked bidirectional maximumStreams =>
    cases bidirectional
    · exact readable_one (.streamsBlocked false) 0x17 (by decide) h rfl rfl
    · exact readable_one (.streamsBlocked true) 0x16 (by decide) h rfl rfl
  | newConnectionId sequenceNumber retirePriorTo connectionId statelessResetToken =>
    exact newConnectionId_readable h
  | retireConnectionId sequenceNumber => exact readable_one .retireConnectionId 0x19 (by decide) h rfl rfl
  | pathChallenge data => exact readable_path .pathChallenge 0x1a (by decide) h rfl rfl
  | pathResponse data => exact readable_path .pathResponse 0x1b (by decide) h rfl rfl
  | connectionClose isTransport errorCode frameType reason => exact connectionClose_readable h
  | handshakeDone =>
    apply Frame.readable_integers 0x1e [] (by decide) (fun _ hmem => (nomatch hmem)) (by decide) rfl
    exact fun _ h => decodes_done h (Decodes.pure _)

theorem Frame.Readable.decodeFrame_eq (h : frame.Readable bytes) (after : Bytes) :
    decodeFrame (bytes ++ after) = .ok (frame, bytes.length) := by
  have hdecode := h.decodes [] after (by simpa using h.length_le)
  obtain ⟨first, rest, rfl, hne⟩ := h.head_ne
  simp only [List.length_nil, Nat.zero_add] at hdecode
  rw [← hdecode]
  exact if_neg hne

theorem Frame.WellFormed.decodeFrame_encode (h : frame.WellFormed) :
    ∃ bytes, frame.encode = .ok bytes ∧ bytes ≠ [] ∧
      ∀ after, decodeFrame (bytes ++ after) = .ok (frame, bytes.length) := by
  by_cases hpad : frame = .padding
  · subst hpad
    exact ⟨[0x00], rfl, by simp, fun _ => rfl⟩
  · obtain ⟨bytes, hbytes⟩ := h.readable hpad
    obtain ⟨first, rest, rfl, -⟩ := hbytes.head_ne
    exact ⟨first :: rest, hbytes.encode_eq, by simp, hbytes.decodeFrame_eq⟩

theorem frontFrame_of_decodeFrame (bytes after : Bytes)
    (h : decodeFrame (bytes ++ after) = .ok (frame, bytes.length)) :
    frontFrame (bytes ++ after) = .ok (some (frame, after)) := by
  rw [frontFrame, h, Outcome.ok_bind]
  simp only [Outcome.range_to_end (show bytes.length ≤ (bytes ++ after).length by simp),
    List.drop_left]
  rfl

theorem encodeFrames_splits (h : ∀ frame ∈ frames, frame.WellFormed) :
    ∃ bytes, encodeFrames frames = .ok bytes ∧ Items.Splits frontFrame bytes frames := by
  induction frames with
  | nil => exact ⟨[], rfl, .nil⟩
  | cons frame frames ih =>
    rw [List.forall_mem_cons] at h
    obtain ⟨head, hhead, hne, hdecode⟩ := h.1.decodeFrame_encode
    obtain ⟨tail, htail, hsplits⟩ := ih h.2
    refine ⟨head ++ tail, ?_, .cons (frontFrame_of_decodeFrame head tail (hdecode tail)) ?_ hsplits⟩
    · rw [encodeFrames, hhead, htail]
      rfl
    · have hpos := List.length_pos_iff.mpr hne
      rw [List.length_append]
      omega

/-! ## Decoded frames are well formed -/

theorem orInvalidFrame_reads {limit : Nat} (x : Option Nat) (message : String) :
    Reads limit 0 (orInvalidFrame x message) fun value => x = some value := by
  cases x with
  | none => exact Reads.lift trivial
  | some value => exact Reads.lift rfl

section

variable {limit : Nat} (hlimit : limit ≤ isizeMax)
include hlimit

theorem ackRanges_reads (count bound : Nat) :
    Reads limit 0 (ackRanges count bound) (Descending bound) := by
  have husize : limit ≤ usizeMax := Nat.le_trans hlimit (by decide)
  induction count generalizing bound with
  | zero => exact Reads.pure trivial
  | succ count ih =>
    apply (varint_reads husize).seq
    intro gap hgap
    apply (varint_reads husize).seq
    intro ackRange hackRange
    apply (orInvalidFrame_reads _ _).seq
    intro gapToNextRange hnext
    apply (orInvalidFrame_reads _ _).seq
    intro stop hstop
    apply (orInvalidFrame_reads _ _).seq
    intro start hstart
    apply (ih start).seq
    intro rest hrest
    have hgapNext := checkedAdd_eq_some hnext
    obtain ⟨hstopLe, hstopEq⟩ := checkedSub_eq_some hstop
    obtain ⟨hstartLe, hstartEq⟩ := checkedSub_eq_some hstart
    refine Reads.pure ⟨?_, ?_, hrest⟩
    all_goals grind

theorem ackEcn_reads (hasEcn : Bool) :
    Reads limit 0 (ackEcn hasEcn) fun ecn => ∀ counts ∈ ecn, counts.WellFormed := by
  have husize : limit ≤ usizeMax := Nat.le_trans hlimit (by decide)
  cases hasEcn with
  | false => exact Reads.pure fun _ hmem => (nomatch hmem)
  | true =>
    apply (varint_reads husize).seq
    intro ect0 h0
    apply (varint_reads husize).seq
    intro ect1 h1
    apply (varint_reads husize).seq
    intro ce h2
    apply Reads.pure
    intro counts hcounts
    cases hcounts
    exact ⟨h0, h1, h2⟩

theorem ackFrame_reads (hasEcn : Bool) :
    Reads limit 0 (ackFrame hasEcn) AckFrame.WellFormed := by
  have husize : limit ≤ usizeMax := Nat.le_trans hlimit (by decide)
  apply (varint_reads husize).seq
  intro largestAck hlargest
  apply (varint_reads husize).seq
  intro ackDelay hdelay
  apply (varint_reads husize).seq
  intro rangeCount _
  apply (varint_reads husize).seq
  intro firstAckRange _
  apply (orInvalidFrame_reads _ _).seq
  intro firstStart hfirst
  apply (ackRanges_reads hlimit _ _).seq
  intro later hlater
  apply (ackEcn_reads hlimit _).seq
  intro ecn hecn
  obtain ⟨-, hfirstEq⟩ := checkedSub_eq_some hfirst
  apply Reads.pure
  refine ⟨hlargest, hdelay, rfl, ⟨?_, Nat.le_refl _, hlater⟩, hecn⟩
  simp only
  omega

theorem takeBytes_reads {length : Nat} (hlength : length ≤ maxVarint) (e : QuicError) :
    Reads limit 0 (Cursor.takeBytes length e : FrameReader Bytes) (·.length ≤ maxVarint) := by
  have hmax : isizeMax + maxVarint ≤ usizeMax := by decide
  exact (Reads.takeBytes (by omega) e).mono (Nat.zero_le _) fun _ h =>
    Nat.le_trans (Nat.le_of_eq h) hlength

theorem cryptoFrame_reads :
    Reads limit 0 cryptoFrame fun frame => (Frame.crypto frame).WellFormed := by
  have husize : limit ≤ usizeMax := Nat.le_trans hlimit (by decide)
  apply (varint_reads husize).seq
  intro offset hoffset
  apply (varint_reads husize).seq
  intro length hlength
  apply (takeBytes_reads hlimit hlength _).seq
  intro data hdata
  exact Reads.pure ⟨hoffset, hdata⟩

theorem streamFrame_reads (typeByte : UInt8) :
    Reads limit 0 (streamFrame typeByte) fun frame =>
      limit ≤ maxVarint → (Frame.stream frame).WellFormed := by
  have husize : limit ≤ usizeMax := Nat.le_trans hlimit (by decide)
  apply (varint_reads husize).seq
  intro streamId hid
  have hoffset : ∀ hasOffset, Reads limit 0 (streamOffset hasOffset) (· ≤ maxVarint) := by
    intro hasOffset
    cases hasOffset with
    | false => exact Reads.pure (Nat.zero_le _)
    | true => exact (varint_reads husize).zero
  have hdata : ∀ hasLength, Reads limit 0 (streamData hasLength) fun data =>
      limit ≤ maxVarint → data.length ≤ maxVarint := by
    intro hasLength
    cases hasLength with
    | false => exact Reads.rest.mono (Nat.le_refl _) fun _ h hmax => Nat.le_trans h hmax
    | true =>
      apply (varint_reads husize).seq
      intro length hlength
      exact (takeBytes_reads hlimit hlength _).mono (Nat.le_refl _) fun _ h _ => h
  apply (hoffset _).seq
  intro offset hoffset
  apply (hdata _).seq
  intro data hdata
  exact Reads.pure fun hmax => ⟨hid, hoffset, hdata hmax⟩

theorem cidAndToken_reads {cidLen : Nat} (hcid : cidLen ≤ maxCidLen) :
    Reads limit 0 (cidAndToken cidLen) fun (connectionId, token) =>
      connectionId.length = cidLen ∧ token.length = 16 := by
  intro buf offset hbuf hoffset
  have hmax : isizeMax + (maxCidLen + 16) ≤ usizeMax := by decide
  simp only [cidAndToken, Cursor.bind_apply, Cursor.ensure_eq (show offset + (cidLen + 16) ≤ usizeMax
    by omega)]
  by_cases hshort : buf.length < offset + (cidLen + 16)
  · simp only [hshort]
    trivial
  · simp only [hshort, if_false, Outcome.bind,
      Cursor.bytes_eq (show offset + cidLen ≤ usizeMax by omega)
        (show offset + cidLen ≤ buf.length by omega),
      Cursor.bytes_eq (show offset + cidLen + 16 ≤ usizeMax by omega)
        (show offset + cidLen + 16 ≤ buf.length by omega)]
    refine ⟨by omega, by omega, ?_, ?_⟩
    all_goals grind

theorem newConnectionId_reads : Reads limit 0 newConnectionId Frame.WellFormed := by
  have husize : limit < usizeMax := Nat.lt_of_le_of_lt hlimit (by decide)
  apply (varint_reads (Nat.le_of_lt husize)).seq
  intro seq hseq
  apply (varint_reads (Nat.le_of_lt husize)).seq
  intro retire hretire
  apply (Reads.byte husize _).seq
  intro cidLen _
  split
  · next hcid =>
    apply (cidAndToken_reads hlimit hcid.2).seq
    rintro ⟨connectionId, token⟩ ⟨hlen, htoken⟩
    apply Reads.pure
    refine ⟨hseq, hretire, ?_, htoken⟩
    rw [hlen]
    exact hcid
  · exact Reads.fail _

theorem connectionClose_reads (isTransport : Bool) :
    Reads limit 0 (connectionClose isTransport) Frame.WellFormed := by
  have husize : limit ≤ usizeMax := Nat.le_trans hlimit (by decide)
  have htype : Reads limit 0 (closeFrameType isTransport) fun frameType =>
      frameType.isSome = isTransport ∧ ∀ field ∈ frameType, field ≤ maxVarint := by
    cases isTransport with
    | false => exact Reads.pure ⟨rfl, fun _ hmem => (nomatch hmem)⟩
    | true =>
      apply (varint_reads husize).seq
      grind [Reads.pure]
  apply (varint_reads husize).seq
  intro errorCode hcode
  apply htype.seq
  rintro frameType ⟨hsome, hfield⟩
  apply (varint_reads husize).seq
  intro reasonLen hlen
  apply (takeBytes_reads hlimit hlen _).seq
  intro reason hreason
  exact Reads.pure ⟨hcode, hsome, hfield, hreason⟩

variable {post : Frame → Prop}

theorem reads_one {make : Nat → Frame} (h : ∀ v, v ≤ maxVarint → post (make v)) :
    Reads limit 0 (varint >>= fun v => pure (make v)) post := by
  apply (varint_reads (Nat.le_trans hlimit (by decide))).seq
  exact fun v hv => Reads.pure (h v hv)

theorem reads_two {make : Nat → Nat → Frame}
    (h : ∀ v w, v ≤ maxVarint → w ≤ maxVarint → post (make v w)) :
    Reads limit 0 (varint >>= fun v => varint >>= fun w => pure (make v w)) post := by
  apply (varint_reads (Nat.le_trans hlimit (by decide))).seq
  exact fun v hv => reads_one hlimit fun w hw => h v w hv hw

theorem reads_path {make : Bytes → Frame} (e : QuicError)
    (h : ∀ data, data.length = 8 → post (make data)) :
    Reads limit 0 (Cursor.takeBytes 8 e >>= fun data => pure (make data)) post := by
  have hmax : isizeMax + 8 ≤ usizeMax := by decide
  apply (Reads.takeBytes (by omega) e).seq
  exact fun data hdata => Reads.pure (h data hdata)

/-- Whatever the type, the decoder stays inside the buffer, and what it returns is well formed.
A limit on the buffer is needed for STREAM data without a length. -/
theorem frameFields_reads (frameType : Nat) :
    Reads limit 0 (frameFields frameType) fun frame => limit ≤ maxVarint → frame.WellFormed := by
  have husize : limit ≤ usizeMax := Nat.le_trans hlimit (by decide)
  have hweak : ∀ {r : FrameReader Frame}, Reads limit 0 r Frame.WellFormed →
      Reads limit 0 r fun frame => limit ≤ maxVarint → frame.WellFormed :=
    fun h => h.mono (Nat.le_refl _) fun _ hwf _ => hwf
  have hack : ∀ hasEcn, Reads limit 0
      (Cursor.call (decodeAckFrame hasEcn) >>= fun frame => pure (Frame.ack frame))
      fun frame => limit ≤ maxVarint → frame.WellFormed := fun hasEcn =>
    ((ackFrame_reads hlimit hasEcn).nested husize).seq fun _ h => Reads.pure fun _ => h
  have hstream : ∀ typeByte, Reads limit 0
      (Cursor.call (decodeStreamFrame typeByte) >>= fun frame => pure (Frame.stream frame))
      fun frame => limit ≤ maxVarint → frame.WellFormed := fun typeByte =>
    ((streamFrame_reads hlimit typeByte).nested husize).seq fun _ h => Reads.pure h
  unfold frameFields
  split
  · exact Reads.pure fun _ => trivial
  · exact hack false
  · exact hack true
  · apply (varint_reads husize).seq
    exact fun v hv => reads_two hlimit fun w x hw hx _ => ⟨hv, hw, hx⟩
  · exact reads_two hlimit fun v w hv hw _ => ⟨hv, hw⟩
  · exact ((cryptoFrame_reads hlimit).nested husize).seq fun _ h => Reads.pure fun _ => h
  · apply (varint_reads husize).seq
    exact fun v hv => (takeBytes_reads hlimit hv _).seq fun _ h => Reads.pure fun _ => h
  · exact hstream _
  · exact hstream _
  · exact hstream _
  · exact hstream _
  · exact hstream _
  · exact hstream _
  · exact hstream _
  · exact hstream _
  · exact reads_one hlimit fun v hv _ => hv
  · exact reads_two hlimit fun v w hv hw _ => ⟨hv, hw⟩
  · exact reads_one hlimit fun v hv _ => hv
  · exact reads_one hlimit fun v hv _ => hv
  · exact reads_one hlimit fun v hv _ => hv
  · exact reads_two hlimit fun v w hv hw _ => ⟨hv, hw⟩
  · exact reads_one hlimit fun v hv _ => hv
  · exact reads_one hlimit fun v hv _ => hv
  · exact hweak (newConnectionId_reads hlimit)
  · exact reads_one hlimit fun v hv _ => hv
  · exact reads_path hlimit _ fun _ h _ => h
  · exact reads_path hlimit _ fun _ h _ => h
  · exact hweak (connectionClose_reads hlimit true)
  · exact hweak (connectionClose_reads hlimit false)
  · exact Reads.pure fun _ => trivial
  · exact Reads.fail _

variable {buf : Bytes}

/-- `decode_frame` does not panic and consumes at least one byte and at most all of them. -/
theorem decodeFrame_meets (hbuf : buf.length ≤ limit) :
    (decodeFrame buf).Meets fun (frame, consumed) =>
      1 ≤ consumed ∧ consumed ≤ buf.length ∧ (limit ≤ maxVarint → frame.WellFormed) := by
  have husize : limit ≤ usizeMax := Nat.le_trans hlimit (by decide)
  cases buf with
  | nil => trivial
  | cons first rest =>
    by_cases hpad : first = 0x00
    · subst hpad
      exact ⟨Nat.le_refl _, by simp, fun _ => trivial⟩
    · have htyped : Reads limit 1 typedFrame fun frame => limit ≤ maxVarint → frame.WellFormed :=
        (varint_reads husize).bind fun frameType _ => frameFields_reads hlimit frameType
      have hdecode : decodeFrame (first :: rest) = typedFrame (first :: rest) 0 := if_neg hpad
      rw [hdecode]
      apply (htyped _ 0 hbuf (Nat.zero_le _)).mono
      simp

theorem frontFrame_meets (hbuf : buf.length ≤ limit) :
    (frontFrame buf).Meets fun r => ∀ frame rest, r = some (frame, rest) →
      rest.length < buf.length ∧ (limit ≤ maxVarint → frame.WellFormed) := by
  apply (decodeFrame_meets hlimit hbuf).bind
  rintro ⟨frame, consumed⟩ ⟨hpos, hin, hwf⟩
  simp only [Outcome.range_to_end hin]
  rintro _ _ ⟨⟩
  refine ⟨?_, hwf⟩
  rw [List.length_drop]
  omega

/-- `decode_frames` ends without a panic, with well-formed frames if the data is not overlong. -/
theorem decodeFrames_total (hbuf : buf.length ≤ limit) :
    ∃ x, decodeFrames buf = some x ∧
      x.Meets fun frames => ∀ frame ∈ frames, limit ≤ maxVarint → frame.WellFormed :=
  Items.readAll_total limit _ (fun _ _ hlen => frontFrame_meets hlimit hlen) hbuf

end

theorem decodeFrames_wellFormed {buf : Bytes} (hbuf : buf.length ≤ maxVarint)
    (h : decodeFrames buf = some (.ok frames)) : ∀ frame ∈ frames, frame.WellFormed := by
  obtain ⟨x, hx, hmeets⟩ := decodeFrames_total (by decide) hbuf
  cases h.symm.trans hx
  exact fun frame hmem => hmeets frame hmem (Nat.le_refl _)

/-! ## Round trips -/

/-- Well-formed frames survive encoding and decoding. So do the frames decoded from any byte string
whose length an integer of the encoding can hold. -/
theorem frame_codec_round_trip :
    (∀ frames : List Frame, (∀ frame ∈ frames, frame.WellFormed) →
      ∃ bytes, encodeFrames frames = .ok bytes ∧ decodeFrames bytes = some (.ok frames)) ∧
    (∀ (b : Bytes) (frames : List Frame), b.length ≤ maxVarint →
      decodeFrames b = some (.ok frames) →
      ∃ bytes, encodeFrames frames = .ok bytes ∧ decodeFrames bytes = some (.ok frames)) := by
  have hforward : ∀ frames : List Frame, (∀ frame ∈ frames, frame.WellFormed) →
      ∃ bytes, encodeFrames frames = .ok bytes ∧ decodeFrames bytes = some (.ok frames) := by
    intro frames hwf
    obtain ⟨bytes, hencode, hsplits⟩ := encodeFrames_splits hwf
    exact ⟨bytes, hencode, Items.readAll_of_splits hsplits⟩
  exact ⟨hforward, fun _ frames hlen h => hforward frames (decodeFrames_wellFormed hlen h)⟩

/-- Both directions at work: frames of several kinds, and bytes that the encoder would write
differently. -/
theorem frame_codec_round_trip_sample :
    (∃ bytes, encodeFrames [.ping, .ack ⟨9, 3, [⟨8, 9⟩, ⟨2, 5⟩], none⟩, .stream ⟨4, 7, true, [1]⟩] =
        .ok bytes ∧
      decodeFrames bytes =
        some (.ok [.ping, .ack ⟨9, 3, [⟨8, 9⟩, ⟨2, 5⟩], none⟩, .stream ⟨4, 7, true, [1]⟩])) ∧
    (∃ bytes, encodeFrames [.ping, .stream ⟨4, 0, false, [0xaa]⟩] = .ok bytes ∧
      decodeFrames bytes = some (.ok [.ping, .stream ⟨4, 0, false, [0xaa]⟩])) := by
  constructor
  · apply frame_codec_round_trip.1
    simp only [List.forall_mem_cons]
    refine ⟨trivial, ⟨by decide, by decide, rfl, by decide, fun _ hmem => (nomatch hmem)⟩,
      ⟨by decide, by decide, by decide⟩, fun _ hmem => (nomatch hmem)⟩
  · exact frame_codec_round_trip.2 [0x40, 0x01, 0x08, 0x04, 0xaa] _ (by decide) rfl

/-! ## Overlong data -/

theorem decodeStreamFrame_to_end (data : Bytes) :
    decodeStreamFrame 0x08 (0x00 :: data) = .ok (⟨0, 0, false, data⟩, data.length + 1) := by
  have hzero : encodeVarint 0 = .ok [0x00] := rfl
  have hid : varint (0x00 :: data) 0 = .ok (0, 1) := varint_decodes hzero [] data (by decide)
  have hoffset : streamOffset (0x08 &&& 0x04 != (0 : UInt8)) (0x00 :: data) 1 = .ok (0, 1) := rfl
  have hdata : streamData (0x08 &&& 0x02 != (0 : UInt8)) (0x00 :: data) 1 =
      .ok (data, data.length + 1) := by
    change (Cursor.rest : FrameReader Bytes) (0x00 :: data) 1 = _
    rw [Cursor.rest, Outcome.range_to_end (by simp)]
    rfl
  simp only [decodeStreamFrame, streamFrame, Cursor.bind_of_ok hid, Cursor.bind_of_ok hoffset,
    Cursor.bind_of_ok hdata]
  rfl

theorem decodeFrames_stream_to_end (hdata : data.length + 2 ≤ usizeMax) :
    decodeFrames (0x08 :: 0x00 :: data) = some (.ok [.stream ⟨0, 0, false, data⟩]) := by
  have hbyte : encodeVarint 0x08 = .ok [0x08] := rfl
  have htype : varint (0x08 :: 0x00 :: data) 0 = .ok (0x08, 1) :=
    varint_decodes hbyte [] (0x00 :: data) (by decide)
  have hcall : (Cursor.call (decodeStreamFrame 0x08) : FrameReader StreamFrame)
      (0x08 :: 0x00 :: data) 1 = .ok (⟨0, 0, false, data⟩, data.length + 2) := by
    have hrest : (0x08 :: 0x00 :: data).drop 1 = (0x00 :: data : Bytes) := rfl
    rw [Cursor.call, Outcome.range_to_end (by simp), hrest]
    simp only [Outcome.bind, decodeStreamFrame_to_end,
      Outcome.add_of_le (show 1 + (data.length + 1) ≤ usizeMax by omega), Outcome.map]
    rw [show 1 + (data.length + 1) = data.length + 2 by omega]
  have hdecode : decodeFrame (0x08 :: 0x00 :: data) =
      .ok (.stream ⟨0, 0, false, data⟩, data.length + 2) := by
    have htyped : typedFrame (0x08 :: 0x00 :: data) 0 =
        .ok (.stream ⟨0, 0, false, data⟩, data.length + 2) := by
      rw [typedFrame, Cursor.bind_of_ok htype]
      exact Cursor.bind_of_ok hcall
    exact htyped
  have hfront : frontFrame (0x08 :: 0x00 :: data) =
      .ok (some (.stream ⟨0, 0, false, data⟩, [])) := by
    have hfront := frontFrame_of_decodeFrame (0x08 :: 0x00 :: data) []
      (by rw [List.append_nil]; exact hdecode)
    rwa [List.append_nil] at hfront
  exact Items.readAll_of_splits (.cons hfront (by simp) .nil)

/-- Data of 2^62 bytes is decoded but has no encoding. -/
theorem overlong_stream_not_encodable :
    ∃ (b : Bytes) (frames : List Frame), decodeFrames b = some (.ok frames) ∧
      ∀ bytes, encodeFrames frames ≠ .ok bytes := by
  obtain ⟨data, hlength⟩ : ∃ data : Bytes, data.length = maxVarint + 1 :=
    ⟨List.replicate (maxVarint + 1) 0, List.length_replicate⟩
  have hmax : maxVarint + 3 ≤ usizeMax := by decide
  refine ⟨0x08 :: 0x00 :: data, _, decodeFrames_stream_to_end (by omega), ?_⟩
  intro bytes h
  -- The length field comes last, so encoding up to it would have to succeed.
  have hvarints : ∃ head, encodeVarints [0x0e, 0, 0, data.length] = .ok head := by
    cases hhead : encodeVarints [0x0e, 0, 0, data.length] with
    | ok head => exact ⟨head, rfl⟩
    | error e =>
      have hframe : Frame.encode (.stream ⟨0, 0, false, data⟩) = .error e := by
        change (do let head ← encodeVarints [0x0e, 0, 0, data.length]; return head ++ data) = _
        rw [hhead]
        rfl
      rw [encodeFrames, hframe] at h
      cases h
  obtain ⟨_, h1⟩ := hvarints
  obtain ⟨_, _, -, h2, -⟩ := encodeVarints_cons h1
  obtain ⟨_, _, -, h3, -⟩ := encodeVarints_cons h2
  obtain ⟨_, _, -, h4, -⟩ := encodeVarints_cons h3
  obtain ⟨_, _, hlen, -, -⟩ := encodeVarints_cons h4
  have hle := le_of_encodeVarint hlen
  omega

end Starfish.Quic
