import Starfish.Http.H3.Frame

/-!
# The frame codec

What one call of `H3Frame::decode` can answer is a function of the header at the front of the
buffer (`decode_eq`). From it: the answers are final (`decode_framed`), and an encoded frame
is read back.
-/

namespace Starfish.Http.H3

open Quic (Bytes QuicError encodeVarint encodeVarints maxVarint)

/-! ## Integers -/

variable {buf bytes payload front rest : Bytes} {r : Nat × Nat}
  {value n id fuel sp frameType pos length : Nat} {settings : List H3Setting} {frame : H3Frame}
  {frames : List H3Frame}

theorem decodeVarint_eq_some : decodeVarint buf = some r ↔ Quic.decodeVarint buf = .ok r := by
  unfold decodeVarint
  cases Quic.decodeVarint buf <;> simp

theorem decodeVarint_bounds (h : decodeVarint buf = some (value, n)) :
    value ≤ maxVarint ∧ 1 ≤ n ∧ n ≤ buf.length :=
  Quic.decodeVarint_bounds (decodeVarint_eq_some.mp h)

theorem decodeVarint_append (h : decodeVarint buf = some r)
    (more : Bytes) : decodeVarint (buf ++ more) = some r :=
  decodeVarint_eq_some.mpr (Quic.decodeVarint_append (decodeVarint_eq_some.mp h) more)

theorem decodeVarint_take (h : decodeVarint buf = some r)
    (hn : r.2 ≤ n) : decodeVarint (buf.take n) = some r :=
  decodeVarint_eq_some.mpr (Quic.decodeVarint_take (decodeVarint_eq_some.mp h) hn)

theorem decodeVarint_encoded (h : encodeVarint value = .ok bytes)
    (rest : Bytes) : decodeVarint (bytes ++ rest) = some (value, bytes.length) :=
  decodeVarint_eq_some.mpr (Quic.decodeVarint_encodeVarint h rest)

/-! ## Payloads -/

theorem decodeIdPayload_eq (h : decodeVarint payload = some (id, n))
    (label : String) (make : Nat → Bytes → H3Frame) :
    decodeIdPayload payload label make = .ok (make id (payload.drop n)) := by
  rw [decodeIdPayload, h]
  simp only [Outcome.range_to_end (decodeVarint_bounds h).2.2]
  rfl

theorem decodeIdPayload_ne_panic (payload : Bytes) (label : String)
    (make : Nat → Bytes → H3Frame) : decodeIdPayload payload label make ≠ .panic := by
  cases h : decodeVarint payload with
  | none => simp [decodeIdPayload, h]
  | some r => simp [decodeIdPayload_eq h]

theorem decodeSettings_succ
    (hsp : sp < payload.length) : decodeSettings payload (fuel + 1) sp settings =
      match decodeVarint (payload.drop sp) with
      | none => some (.error (.parse "truncated SETTINGS id" []))
      | some (id, n) =>
        match decodeVarint (payload.drop (sp + n)) with
        | none => some (.error (.parse "truncated SETTINGS value" []))
        | some (value, m) =>
          decodeSettings payload fuel (sp + n + m) (settings ++ [⟨id, value⟩]) := by
  rw [decodeSettings, if_pos hsp, Outcome.range_to_end (Nat.le_of_lt hsp)]
  cases h : decodeVarint (payload.drop sp) with
  | none => simp only [h]
  | some r =>
    have hn := (decodeVarint_bounds h).2.2
    grind [Outcome.range_to_end]

theorem decodeSettings_ends (hfuel : payload.length - sp < fuel) (settings : List H3Setting) :
    ∃ result, decodeSettings payload fuel sp settings = some result ∧ result ≠ .panic := by
  induction fuel generalizing sp settings with
  | zero => omega
  | succ fuel ih =>
    by_cases hsp : sp < payload.length
    · rw [decodeSettings_succ hsp]
      cases hid : decodeVarint (payload.drop sp) with
      | none => exact ⟨_, rfl, by simp⟩
      | some r =>
        have hn := decodeVarint_bounds hid
        cases hvalue : decodeVarint (payload.drop (sp + r.2)) with
        | none =>
          simp only [hvalue]
          exact ⟨_, rfl, by simp⟩
        | some q =>
          simp only [hvalue]
          exact ih (by omega) _
    · exact ⟨.ok settings, by rw [decodeSettings, if_neg hsp], by simp⟩

theorem decodeSettings_encoded (h : settingsPayload settings = .ok bytes)
    (hpayload : payload = front ++ bytes) (hfuel : bytes.length < fuel) (acc : List H3Setting) :
    decodeSettings payload fuel front.length acc = some (.ok (acc ++ settings)) := by
  induction settings generalizing bytes front fuel acc with
  | nil =>
    cases h
    cases fuel with
    | zero => omega
    | succ fuel =>
      rw [decodeSettings, if_neg (by simp [hpayload]), List.append_nil]
  | cons s settings ih =>
    obtain ⟨idBytes, tail, hid, htail, rfl⟩ := Quic.encodeVarints_cons h
    obtain ⟨valueBytes, rest, hvalue, hrest, rfl⟩ := Quic.encodeVarints_cons htail
    have hidLength := Quic.encodeVarint_length hid
    have hvalueLength := Quic.encodeVarint_length hvalue
    simp only [List.length_append] at hfuel
    cases fuel with
    | zero => omega
    | succ fuel =>
      have hidRead : decodeVarint (payload.drop front.length) =
          some (s.id, idBytes.length) := by
        rw [hpayload, List.drop_left, decodeVarint_encoded hid]
      have hvalueRead : decodeVarint (payload.drop (front.length + idBytes.length)) =
          some (s.value, valueBytes.length) := by
        rw [hpayload, ← List.append_assoc, ← List.length_append, List.drop_left,
          decodeVarint_encoded hvalue]
      have hrec := @ih rest (front ++ idBytes ++ valueBytes) fuel hrest (by simp [hpayload])
        (by omega) (acc ++ [s])
      rw [List.length_append, List.length_append, List.append_assoc] at hrec
      rw [decodeSettings_succ (by simp [hpayload]; omega), hidRead]
      simp only [hvalueRead]
      exact hrec

theorem decodePayload_ne_panic (frameType : Nat) (payload : Bytes) :
    decodePayload frameType payload ≠ .panic := by
  have hexact : ∀ label (make : Nat → H3Frame),
      (Outcome.ofExcept (decodeExactVarintPayload payload label)).map make ≠ .panic := by
    intro label make h
    exact Outcome.ofExcept_ne_panic _ (Outcome.map_eq_panic.mp h)
  have hsettings : ((decodeSettings payload (payload.length + 1) 0 []).getD .panic).map
      H3Frame.settings ≠ .panic := by
    obtain ⟨result, hresult, hne⟩ :=
      @decodeSettings_ends payload (payload.length + 1) 0 (Nat.lt_succ_self _) []
    rw [hresult]
    exact fun h => hne (Outcome.map_eq_panic.mp h)
  unfold decodePayload
  repeat' split
  all_goals first
    | exact decodeIdPayload_ne_panic _ _ _
    | exact hexact _ _
    | exact hsettings
    | simp

/-! ## One frame -/

/-- Type, position and length of the payload at the front of a buffer. -/
def frameHeader (buf : Bytes) : Option (Nat × Nat × Nat) :=
  match decodeVarint buf with
  | none => none
  | some (frameType, n) =>
    match decodeVarint (buf.drop n) with
    | none => none
    | some (length, m) => some (frameType, n + m, length)

theorem frameHeader_bounds (h : frameHeader buf = some (frameType, pos, length)) :
    2 ≤ pos ∧ pos ≤ buf.length ∧ length ≤ maxVarint := by
  unfold frameHeader at h
  cases htype : decodeVarint buf with
  | none => simp [htype] at h
  | some r =>
    have hn := decodeVarint_bounds htype
    cases hlength : decodeVarint (buf.drop r.2) with
    | none => simp [htype, hlength] at h
    | some q =>
      have hm := decodeVarint_bounds hlength
      grind

theorem frameHeader_append {r : Nat × Nat × Nat} (h : frameHeader buf = some r)
    (more : Bytes) : frameHeader (buf ++ more) = some r := by
  unfold frameHeader at h ⊢
  cases htype : decodeVarint buf with
  | none => simp [htype] at h
  | some q =>
    have hn := decodeVarint_bounds htype
    grind [decodeVarint_append]

theorem decode_eq (buf : Bytes) :
    H3Frame.decode buf =
      match frameHeader buf with
      | none => .ok none
      | some (frameType, pos, length) =>
        if buf.length < pos + length then .ok none
        else (decodePayload frameType ((buf.drop pos).take length)).map fun frame =>
          some (frame, pos + length) := by
  unfold H3Frame.decode
  cases hheader : frameHeader buf with
  | none =>
    unfold frameHeader at hheader
    cases htype : decodeVarint buf with
    | none => rfl
    | some r =>
      simp only [htype, Outcome.range_to_end (decodeVarint_bounds htype).2.2] at hheader ⊢
      cases hlength : decodeVarint (buf.drop r.2) with
      | none => simp [hlength]
      | some q => simp [hlength] at hheader
  | some header =>
    obtain ⟨frameType, pos, length⟩ := header
    obtain ⟨-, hpos, hlen⟩ := frameHeader_bounds hheader
    unfold frameHeader at hheader
    cases htype : decodeVarint buf with
    | none => simp [htype] at hheader
    | some r =>
      simp only [htype, Outcome.range_to_end (decodeVarint_bounds htype).2.2] at hheader ⊢
      cases hlength : decodeVarint (buf.drop r.2) with
      | none => simp [hlength] at hheader
      | some q =>
        simp only [hlength] at hheader
        cases hheader
        have husize : ¬ usizeMax < q.1 := by
          grind [usizeMax, maxVarint]
        simp only [Outcome.ok_bind, hlength, if_neg husize, Outcome.sub_of_le hpos]
        by_cases hmore : buf.length < r.2 + q.2 + q.1
        · rw [if_pos (by omega), if_pos hmore]
        · rw [if_neg (by omega), if_neg hmore, Outcome.range_of_le (by omega) (by omega),
            Outcome.ok_bind, Nat.add_sub_cancel_left]
          cases decodePayload r.1 ((buf.drop (r.2 + q.2)).take q.1) <;> rfl

theorem decode_append (h : H3Frame.decode buf ≠ .ok none) (more : Bytes) :
    H3Frame.decode (buf ++ more) = H3Frame.decode buf := by
  rw [decode_eq] at h
  rw [decode_eq, decode_eq buf]
  cases hheader : frameHeader buf with
  | none => simp [hheader] at h
  | some header =>
    simp only [frameHeader_append hheader more] at h ⊢
    grind

/-- The answers of `H3Frame::decode` are final. -/
theorem decode_framed : Framing.Framed H3Frame.decode where
  ne_panic buf h := by
    rw [decode_eq] at h
    split at h
    · cases h
    · split at h
      · cases h
      · exact decodePayload_ne_panic _ _ (Outcome.map_eq_panic.mp h)
  bounds := by
    intro buf frame consumed h
    rw [decode_eq] at h
    split at h
    · cases h
    · next hheader =>
      have hbounds := frameHeader_bounds hheader
      split at h
      · cases h
      · obtain ⟨_, -, heq⟩ := Outcome.map_eq_ok.mp h
        cases heq
        omega
  append_some h more := by rw [decode_append (by simp [h]), h]
  append_error h more := by rw [decode_append (by simp [h]), h]

theorem decode_eq_some {consumed : Nat} : H3Frame.decode buf = .ok (some (frame, consumed)) ↔
      ∃ frameType pos length, frameHeader buf = some (frameType, pos, length) ∧
        pos + length = consumed ∧ consumed ≤ buf.length ∧
        decodePayload frameType ((buf.drop pos).take length) = .ok frame := by
  rw [decode_eq]
  cases hheader : frameHeader buf with
  | none => simp
  | some header =>
    obtain ⟨frameType, pos, length⟩ := header
    by_cases hlen : buf.length < pos + length
    · grind
    · simp only [if_neg hlen, Outcome.map_eq_ok]
      grind

theorem frameHeader_take (h : frameHeader buf = some (frameType, pos, length)) (hn : pos ≤ n) :
    frameHeader (buf.take n) = some (frameType, pos, length) := by
  unfold frameHeader at h ⊢
  cases htype : decodeVarint buf with
  | none => simp [htype] at h
  | some r =>
    cases hlength : decodeVarint (buf.drop r.2) with
    | none => simp [htype, hlength] at h
    | some q =>
      simp only [htype, hlength] at h
      cases h
      have hsecond : decodeVarint ((buf.take n).drop r.2) = some q := by
        rw [List.drop_take]
        exact decodeVarint_take hlength (by omega)
      rw [decodeVarint_take htype (by omega)]
      simp only [hsecond]

theorem decode_local : Framing.Local H3Frame.decode := by
  intro buf frame consumed h
  obtain ⟨frameType, pos, length, hheader, rfl, hle, hpayload⟩ := decode_eq_some.mp h
  refine decode_eq_some.mpr ⟨frameType, pos, length, frameHeader_take hheader (by omega), rfl, ?_, ?_⟩
  all_goals grind

/-! ## Reading back -/

namespace H3Frame

def integers : H3Frame → List Nat
  | .data _ | .headers _ => []
  | .cancelPush id | .goAway id | .maxPushId id => [id]
  | .settings list => list.flatMap fun s => [s.id, s.value]
  | .pushPromise id _ | .priorityUpdateRequest id _ | .priorityUpdatePush id _ => [id]
  | .unknown frameType _ => [frameType]

/-- A frame that can be sent: its integers and its length are below 2^62, and an unknown frame
does not have the type of another one. -/
structure Encodable (frame : H3Frame) : Prop where
  integers : ∀ i ∈ frame.integers, i < 2 ^ 62
  length : ∀ payload, frame.payload = .ok payload → payload.length < 2 ^ 62
  unknown : ∀ frameType bytes, frame = .unknown frameType bytes →
    isDefinedFrameType frameType = false ∧ isReservedHttp2FrameType frameType = false

end H3Frame

theorem encodeVarint_of_lt (h : value < 2 ^ 62) : ∃ bytes, encodeVarint value = .ok bytes :=
  Quic.encodeVarint_of_le (by unfold maxVarint; omega)

theorem idPayload_of_lt (h : id < 2 ^ 62) (rest : Bytes) :
    ∃ payload, idPayload id rest = .ok payload := by
  obtain ⟨bytes, hbytes⟩ := encodeVarint_of_lt h
  exact ⟨bytes ++ rest, by rw [idPayload, hbytes]; rfl⟩

theorem idPayload_eq_ok (h : idPayload id rest = .ok payload) :
    ∃ bytes, encodeVarint id = .ok bytes ∧ payload = bytes ++ rest := by
  unfold idPayload at h
  obtain ⟨bytes, hid, h⟩ := Quic.except_bind_eq_ok.mp h
  cases h
  exact ⟨bytes, hid, rfl⟩

theorem decodeIdPayload_encoded
    (h : idPayload id rest = .ok payload) (label : String) (make : Nat → Bytes → H3Frame) :
    decodeIdPayload payload label make = .ok (make id rest) := by
  obtain ⟨bytes, hbytes, rfl⟩ := idPayload_eq_ok h
  rw [decodeIdPayload_eq (decodeVarint_encoded hbytes rest), List.drop_left]

theorem decodeExactVarintPayload_encoded (h : idPayload id [] = .ok payload) (label : String) :
    decodeExactVarintPayload payload label = .ok id := by
  obtain ⟨bytes, hbytes, rfl⟩ := idPayload_eq_ok h
  rw [decodeExactVarintPayload, decodeVarint_encoded hbytes]
  simp

theorem H3Frame.Encodable.payload_ok (h : frame.Encodable) :
    ∃ payload, frame.payload = .ok payload := by
  have hint := h.integers
  cases frame with
  | data payload => exact ⟨payload, rfl⟩
  | headers block => exact ⟨block, rfl⟩
  | unknown frameType bytes => exact ⟨bytes, rfl⟩
  | settings list =>
    refine Quic.encodeVarints_of_le fun value hvalue => ?_
    have := hint value hvalue
    unfold maxVarint
    omega
  | cancelPush id | goAway id | maxPushId id | pushPromise id | priorityUpdateRequest id
  | priorityUpdatePush id => exact idPayload_of_lt (hint id (List.mem_singleton_self id)) _

theorem H3Frame.Encodable.frameType_lt (h : frame.Encodable) : frame.frameType < 2 ^ 62 := by
  cases frame with
  | unknown frameType bytes => exact h.integers frameType (List.mem_singleton_self _)
  | _ => simp [frameType]

theorem H3Frame.Encodable.encode_ok (h : frame.Encodable) : ∃ bytes, frame.encode = .ok bytes := by
  obtain ⟨payload, hpayload⟩ := h.payload_ok
  obtain ⟨head, hhead⟩ := encodeVarint_of_lt h.frameType_lt
  obtain ⟨length, hlength⟩ := encodeVarint_of_lt (h.length payload hpayload)
  refine ⟨head ++ length ++ payload, ?_⟩
  simp [encode, encodeFrame, hhead, hpayload, hlength, bind, Except.bind, pure, Except.pure]

theorem encode_eq_ok (h : frame.encode = .ok bytes) :
    ∃ head length payload, encodeVarint frame.frameType = .ok head ∧
      frame.payload = .ok payload ∧ encodeVarint payload.length = .ok length ∧
      bytes = head ++ (length ++ payload) := by
  unfold H3Frame.encode encodeFrame at h
  split at h <;> cases h
  next h =>
    obtain ⟨head, hhead, h⟩ := Quic.except_bind_eq_ok.mp h
    obtain ⟨payload, hpayload, h⟩ := Quic.except_bind_eq_ok.mp h
    obtain ⟨length, hlength, h⟩ := Quic.except_bind_eq_ok.mp h
    cases h
    exact ⟨head, length, payload, hhead, hpayload, hlength, by simp⟩

theorem decodePayload_encoded (h : frame.Encodable) (hpayload : frame.payload = .ok payload) :
    decodePayload frame.frameType payload = .ok frame := by
  cases frame with
  | data | headers =>
    cases hpayload
    rfl
  | settings list =>
    have hread := decodeSettings_encoded hpayload (List.nil_append _).symm
      (Nat.lt_succ_self _) []
    change ((decodeSettings payload (payload.length + 1) 0 []).getD .panic).map _ = _
    rw [show decodeSettings payload (payload.length + 1) 0 [] = some (.ok list) from hread]
    rfl
  | cancelPush | goAway | maxPushId =>
    change (Outcome.ofExcept (decodeExactVarintPayload payload _)).map _ = _
    rw [decodeExactVarintPayload_encoded hpayload]
    rfl
  | pushPromise | priorityUpdateRequest | priorityUpdatePush =>
    exact decodeIdPayload_encoded hpayload _ _
  | unknown frameType bytes =>
    cases hpayload
    obtain ⟨hdefined, hreserved⟩ := h.unknown frameType _ rfl
    simp only [isDefinedFrameType, List.mem_cons,
      decide_eq_false_iff_not, not_or] at hdefined
    simp [decodePayload, H3Frame.frameType, hreserved, hdefined]

theorem decode_encode (h : frame.Encodable) (hbytes : frame.encode = .ok bytes) (rest : Bytes) :
    H3Frame.decode (bytes ++ rest) = .ok (some (frame, bytes.length)) := by
  obtain ⟨head, length, payload, hhead, hpayload, hlength, rfl⟩ := encode_eq_ok hbytes
  have hheader : frameHeader (head ++ (length ++ payload) ++ rest) =
      some (frame.frameType, head.length + length.length, payload.length) := by
    simp only [frameHeader, List.append_assoc, decodeVarint_encoded hhead, List.drop_left,
      decodeVarint_encoded hlength]
  have hdrop : (head ++ (length ++ payload) ++ rest).drop (head.length + length.length) =
      payload ++ rest := by
    simp
  rw [decode_eq, hheader]
  simp only [hdrop, List.take_left, decodePayload_encoded h hpayload, List.length_append]
  rw [if_neg (by omega), Nat.add_assoc]
  rfl

theorem decode_of_isPrefix (h : frame.Encodable) {part : Bytes}
    (hbytes : frame.encode = .ok bytes) (hpart : part <+: bytes) (hne : part ≠ bytes) :
    H3Frame.decode part = .ok none := by
  obtain ⟨more, rfl⟩ := hpart
  have hwhole : H3Frame.decode (part ++ more) = .ok (some (frame, (part ++ more).length)) := by
    simpa using decode_encode h hbytes []
  by_cases hnone : H3Frame.decode part = .ok none
  · exact hnone
  · rw [decode_append hnone more] at hwhole
    have hbounds := decode_framed.bounds hwhole
    simp_all

/-! ## All frames of a stream -/

def encodeAll : List H3Frame → Except HttpError Bytes
  | [] => .ok []
  | frame :: frames => do
      let bytes ← frame.encode
      let rest ← encodeAll frames
      return bytes ++ rest

theorem encodeAll_cons (h : encodeAll (frame :: frames) = .ok bytes) :
    ∃ first rest, frame.encode = .ok first ∧ encodeAll frames = .ok rest ∧
      bytes = first ++ rest := by
  unfold encodeAll at h
  obtain ⟨first, hfirst, h⟩ := Quic.except_bind_eq_ok.mp h
  obtain ⟨rest, hrest, h⟩ := Quic.except_bind_eq_ok.mp h
  cases h
  exact ⟨first, rest, hfirst, hrest, rfl⟩

theorem encodeAll_ok (h : ∀ frame ∈ frames, frame.Encodable) :
    ∃ bytes, encodeAll frames = .ok bytes := by
  induction frames with
  | nil => exact ⟨[], rfl⟩
  | cons frame frames ih =>
    obtain ⟨first, hfirst⟩ := (h frame List.mem_cons_self).encode_ok
    obtain ⟨rest, hrest⟩ := ih fun f hf => h f (List.mem_cons_of_mem frame hf)
    exact ⟨first ++ rest, by simp [encodeAll, hfirst, hrest, bind, Except.bind, pure, Except.pure]⟩

theorem decodeAllFrom_succ (hpos : pos < buf.length) : decodeAllFrom buf (fuel + 1) pos frames =
      match H3Frame.decode (buf.drop pos) with
      | .panic => some .panic
      | .error e => some (.error e)
      | .ok (some (frame, consumed)) =>
        decodeAllFrom buf fuel (pos + consumed) (frames ++ [frame])
      | .ok none => some (.error (.parse "truncated HTTP/3 frame at end of stream" [])) := by
  rw [decodeAllFrom, if_pos hpos, Outcome.range_to_end (Nat.le_of_lt hpos)]
  rfl

theorem decodeAllFrom_ends (hfuel : buf.length - pos < fuel) (frames : List H3Frame) :
    ∃ result, decodeAllFrom buf fuel pos frames = some result ∧ result ≠ .panic := by
  induction fuel generalizing pos frames with
  | zero => omega
  | succ fuel ih =>
    by_cases hpos : pos < buf.length
    · rw [decodeAllFrom_succ hpos]
      cases hdecode : H3Frame.decode (buf.drop pos) with
      | panic => exact absurd hdecode (decode_framed.ne_panic _)
      | error e => exact ⟨_, rfl, by simp⟩
      | ok answer =>
        cases answer with
        | none => exact ⟨_, rfl, by simp⟩
        | some r =>
          have hbounds := decode_framed.bounds hdecode
          exact ih (by omega) _
    · exact ⟨.ok frames, by rw [decodeAllFrom, if_neg hpos], by simp⟩

theorem decodeAllFrom_encoded (h : ∀ frame ∈ frames, frame.Encodable)
    (hbytes : encodeAll frames = .ok bytes)
    (hbuf : buf = front ++ bytes) (hfuel : bytes.length < fuel) (acc : List H3Frame) :
    decodeAllFrom buf fuel front.length acc = some (.ok (acc ++ frames)) := by
  induction frames generalizing bytes front fuel acc with
  | nil =>
    cases hbytes
    cases fuel with
    | zero => omega
    | succ fuel => rw [decodeAllFrom, if_neg (by simp [hbuf]), List.append_nil]
  | cons frame frames ih =>
    obtain ⟨first, rest, hfirst, hrest, rfl⟩ := encodeAll_cons hbytes
    have hframe := h frame List.mem_cons_self
    have hread : H3Frame.decode (buf.drop front.length) = .ok (some (frame, first.length)) := by
      rw [hbuf, List.drop_left, decode_encode hframe hfirst]
    have hpositive := (decode_framed.bounds hread).1
    rw [List.length_append] at hfuel
    cases fuel with
    | zero => omega
    | succ fuel =>
      have hrec := @ih rest (front ++ first) fuel (fun f hf => h f (List.mem_cons_of_mem frame hf))
        hrest (by simp [hbuf]) (by omega) (acc ++ [frame])
      grind [decodeAllFrom_succ]

end Starfish.Http.H3
