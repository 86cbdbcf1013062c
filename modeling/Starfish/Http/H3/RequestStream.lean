import Starfish.Http.H3.ClientPush

/-!
# Request streams

Client and server read a request stream to its end and go through its frames with two flags:
the first HEADERS frame is the message and a second one its trailers. A response may be preceded
by interim ones, which the client takes for the response.
-/

namespace Starfish.Http.H3

open Quic (Bytes)
open Client (HeaderList ensureInitialHeadersSeen validateIncomingPushId)

/-- The variables of the loop over the frames. -/
structure MessageParts where
  headers : HeaderList := []
  body : Bytes := []
  sawInitialHeaders : Bool := false
  sawTrailers : Bool := false

/-- A frame, and the answer of the QPACK decoder should it be asked for the block of this frame.
The decoder has a state, so that one block can have two answers on a stream. -/
abbrev AnsweredFrame := H3Frame × Except HttpError HeaderList

/-- A round of the loop; `promise` is what becomes of a PUSH_PROMISE. -/
def readFrame (promise : Nat → Except HttpError HeaderList → Except HttpError Unit)
    (parts : MessageParts) : AnsweredFrame → Except HttpError MessageParts
  | (.headers _, decoded) =>
    if !parts.sawInitialHeaders then
      decoded.map fun headers => { parts with headers := headers, sawInitialHeaders := true }
    else if !parts.sawTrailers then decoded.map fun _ => { parts with sawTrailers := true }
    else .error (frameUnexpected "more than two HEADERS frames on request stream")
  | (.data payload, _) =>
    if !parts.sawInitialHeaders then
      .error (frameUnexpected "DATA before HEADERS on request stream")
    else if parts.sawTrailers then
      .error (frameUnexpected "DATA after trailers on request stream")
    else .ok { parts with body := parts.body ++ payload }
  | (.pushPromise pushId _, decoded) => (promise pushId decoded).map fun _ => parts
  | (.unknown .., _) => .ok parts
  | _ => .error (frameUnexpected "control frame on request stream")

def readFrames (promise : Nat → Except HttpError HeaderList → Except HttpError Unit) :
    MessageParts → List AnsweredFrame → Except HttpError MessageParts
  | parts, [] => .ok parts
  | parts, frame :: rest =>
    match readFrame promise parts frame with
    | .error e => .error e
    | .ok parts => readFrames promise parts rest

def readMessage (promise : Nat → Except HttpError HeaderList → Except HttpError Unit)
    (streamLabel : String) (frames : List AnsweredFrame) : Except HttpError (HeaderList × Bytes) :=
  match readFrames promise {} frames with
  | .error e => .error e
  | .ok parts =>
    (ensureInitialHeadersSeen parts.sawInitialHeaders streamLabel).map fun _ =>
      (parts.headers, parts.body)

/-- `read_response` and `read_request` after the stream has been read; `answer` gives the answers
of the QPACK decoder, by the position of the frame. -/
def readStream (read : List AnsweredFrame → Except HttpError (HeaderList × Bytes))
    (answer : Nat → Except HttpError HeaderList) (accumulated : Bytes) :
    Outcome HttpError (HeaderList × Bytes) :=
  match decodeAllFramesAtEof accumulated with
  | some (.ok frames) => .ofExcept (read (frames.zipIdx.map fun f => (f.1, answer f.2)))
  | some (.error e) => .error e
  | _ => .panic

/-- `H3Connection::read_response`; the push that is stored is in `receivePromise`. -/
def Client.readResponse (conn : Client.H3Connection) :
    List AnsweredFrame → Except HttpError (HeaderList × Bytes) :=
  readMessage (fun pushId decoded =>
    decoded.bind fun _ => validateIncomingPushId conn.localMaxPushId pushId) "request/response"

def Server.readRequest : List AnsweredFrame → Except HttpError (HeaderList × Bytes) :=
  readMessage (fun _ _ => .error (frameUnexpected "PUSH_PROMISE on request stream")) "request"

/-! ## Runs over the frames -/

namespace AnsweredFrame

def isUnknown : AnsweredFrame → Bool
  | (.unknown .., _) => true
  | _ => false

def isHeaders : AnsweredFrame → Bool
  | (.headers _, _) => true
  | _ => false

def isData : AnsweredFrame → Bool
  | (.data _, _) => true
  | _ => false

def payload : AnsweredFrame → Bytes
  | (.data payload, _) => payload
  | _ => []

def isControl : AnsweredFrame → Bool
  | (.settings _, _) | (.goAway _, _) | (.maxPushId _, _) | (.cancelPush _, _)
  | (.priorityUpdateRequest .., _) | (.priorityUpdatePush .., _) => true
  | _ => false

end AnsweredFrame

section Runs

variable {promise : Nat → Except HttpError HeaderList → Except HttpError Unit}
variable {parts after : MessageParts} {frame : AnsweredFrame} {frames : List AnsweredFrame}

theorem readFrames_append (parts : MessageParts) (front back : List AnsweredFrame) :
    readFrames promise parts (front ++ back) =
      match readFrames promise parts front with
      | .error e => .error e
      | .ok parts => readFrames promise parts back := by
  induction front generalizing parts with
  | nil => rfl
  | cons frame rest ih =>
    simp only [List.cons_append, readFrames]
    cases readFrame promise parts frame with
    | error e => rfl
    | ok parts => exact ih parts

theorem readFrames_filter (parts : MessageParts) (frames : List AnsweredFrame) :
    readFrames promise parts (frames.filter fun f => !f.isUnknown) =
      readFrames promise parts frames := by
  induction frames generalizing parts with
  | nil => rfl
  | cons frame rest ih =>
    cases hunknown : frame.isUnknown with
    | false =>
      rw [List.filter_cons_of_pos (by simp [hunknown]), readFrames, readFrames]
      cases readFrame promise parts frame with
      | error e => rfl
      | ok parts => exact ih parts
    | true =>
      have hread : readFrame promise parts frame = .ok parts := by
        obtain ⟨frame, decoded⟩ := frame
        cases frame <;> first | rfl | cases hunknown
      rw [List.filter_cons_of_neg (by simp [hunknown]), readFrames, hread]
      exact ih parts

/-- How many HEADERS frames have been seen, as far as the flags tell. -/
def MessageParts.headersSeen (parts : MessageParts) : Nat :=
  parts.sawInitialHeaders.toNat + parts.sawTrailers.toNat

/-- The flags count the HEADERS frames, the first of which is kept, and the body collects DATA. -/
structure Follows (before : MessageParts) (frames : List AnsweredFrame) (after : MessageParts) :
    Prop where
  seen : after.headersSeen = before.headersSeen + frames.countP AnsweredFrame.isHeaders
  headers : before.sawInitialHeaders = true →
    after.sawInitialHeaders = true ∧ after.headers = before.headers
  body : after.body = before.body ++ frames.flatMap AnsweredFrame.payload

theorem readFrame_follows (h : readFrame promise parts frame = .ok after) :
    Follows parts [frame] after := by
  obtain ⟨frame, decoded⟩ := frame
  obtain ⟨headers, body, initial, trailers⟩ := parts
  cases frame with
  | headers block =>
    cases decoded with
    | error e => cases initial <;> cases trailers <;> cases h
    | ok decoded =>
      cases initial <;> cases trailers <;> cases h <;>
        exact ⟨rfl, by simp, (List.append_nil _).symm⟩
  | data payload =>
    cases initial <;> cases trailers <;> cases h
    exact ⟨rfl, fun _ => ⟨rfl, rfl⟩, by simp [AnsweredFrame.payload]⟩
  | pushPromise pushId block =>
    rw [readFrame] at h
    cases hpromise : promise pushId decoded with
    | error e =>
      rw [hpromise] at h
      cases h
    | ok _ =>
      rw [hpromise] at h
      cases h
      exact ⟨rfl, fun hinitial => ⟨hinitial, rfl⟩, (List.append_nil _).symm⟩
  | unknown frameType bytes =>
    cases h
    exact ⟨rfl, fun hinitial => ⟨hinitial, rfl⟩, (List.append_nil _).symm⟩
  | _ => cases h

theorem readFrames_follows (h : readFrames promise parts frames = .ok after) :
    Follows parts frames after := by
  induction frames generalizing parts with
  | nil =>
    cases h
    exact ⟨rfl, fun hinitial => ⟨hinitial, rfl⟩, (List.append_nil _).symm⟩
  | cons frame rest ih =>
    rw [readFrames] at h
    cases hframe : readFrame promise parts frame with
    | error e =>
      rw [hframe] at h
      cases h
    | ok middle =>
      rw [hframe] at h
      obtain ⟨hseen, hheaders, hbody⟩ := readFrame_follows hframe
      obtain ⟨hseen', hheaders', hbody'⟩ := ih h
      refine ⟨?_, ?_, ?_⟩
      · rw [hseen', hseen, Nat.add_assoc, ← List.countP_append, List.singleton_append]
      · intro hinitial
        obtain ⟨hmiddle, heq⟩ := hheaders hinitial
        exact ⟨(hheaders' hmiddle).1, (hheaders' hmiddle).2.trans heq⟩
      · rw [hbody', hbody, List.append_assoc, ← List.flatMap_append, List.singleton_append]

theorem readFrames_error {front back : List AnsweredFrame}
    (h : ∀ parts, readFrames promise {} front = .ok parts →
      ∃ e, readFrame promise parts frame = .error e) :
    ∃ e, readFrames promise {} (front ++ frame :: back) = .error e := by
  rw [readFrames_append]
  cases hfront : readFrames promise {} front with
  | error e => exact ⟨e, rfl⟩
  | ok parts =>
    obtain ⟨e, he⟩ := h parts hfront
    exact ⟨e, by simp only [readFrames, he]⟩

def Misplaced (headersBefore : Nat) (frame : AnsweredFrame) : Prop :=
  frame.isControl = true ∨ frame.isData = true ∧ headersBefore = 0 ∨
    (frame.isData = true ∨ frame.isHeaders = true) ∧ 2 ≤ headersBefore

theorem readFrame_misplaced (h : Misplaced parts.headersSeen frame) :
    ∃ e, readFrame promise parts frame = .error e := by
  obtain ⟨frame, decoded⟩ := frame
  obtain ⟨headers, body, initial, trailers⟩ := parts
  cases frame <;> cases initial <;> cases trailers <;>
    first
      | exact ⟨_, rfl⟩
      | simp [Misplaced, MessageParts.headersSeen, AnsweredFrame.isControl, AnsweredFrame.isData,
          AnsweredFrame.isHeaders] at h

theorem readMessage_misplaced (streamLabel : String) {front back : List AnsweredFrame}
    (h : Misplaced (front.countP AnsweredFrame.isHeaders) frame) :
    ∃ e, readMessage promise streamLabel (front ++ frame :: back) = .error e := by
  have hread : ∃ e, readFrames promise {} (front ++ frame :: back) = .error e := by
    apply readFrames_error
    intro parts hparts
    apply readFrame_misplaced
    rw [(readFrames_follows hparts).seen]
    exact (Nat.zero_add _).symm ▸ h
  obtain ⟨e, he⟩ := hread
  exact ⟨e, by rw [readMessage, he]⟩

end Runs

/-! ## Responses -/

/-- The section of an interim response: the status is a number from 100 to 199. -/
def isInterim (headers : HeaderList) : Bool :=
  headers.any fun e =>
    e.1 == ascii ":status" && (parseU16 e.2).any fun status => 100 ≤ status && status < 200

def AnsweredFrame.isInterim : AnsweredFrame → Bool
  | (.headers _, .ok headers) => H3.isInterim headers
  | _ => false

def sectionFrame (part : Bytes × HeaderList) : AnsweredFrame := (.headers part.1, .ok part.2)

def dataFrame (part : Bytes × Except HttpError HeaderList) : AnsweredFrame := (.data part.1, part.2)

def responseFrames (interim : List (Bytes × HeaderList)) (final : Bytes × HeaderList)
    (payloads : List (Bytes × Except HttpError HeaderList))
    (trailers : Option (Bytes × HeaderList)) : List AnsweredFrame :=
  interim.map sectionFrame ++ sectionFrame final ::
    (payloads.map dataFrame ++ trailers.toList.map sectionFrame)

def finalHeaders (frames : List AnsweredFrame) : List AnsweredFrame :=
  (frames.filter AnsweredFrame.isHeaders).dropWhile AnsweredFrame.isInterim

inductive EndsInside : Bytes → Prop
  | here {buf : Bytes} : buf ≠ [] → H3Frame.decode buf = .ok none → EndsInside buf
  | later {buf : Bytes} {frame : H3Frame} {consumed : Nat} :
    H3Frame.decode buf = .ok (some (frame, consumed)) → EndsInside (buf.drop consumed) →
      EndsInside buf

theorem EndsInside.decodeAllFrom {rest buf : Bytes} (h : EndsInside rest) (pos fuel : Nat)
    (hrest : rest = buf.drop pos) (hfuel : buf.length - pos < fuel) (frames : List H3Frame) :
    ∃ e, decodeAllFrom buf fuel pos frames = some (.error e) := by
  induction h generalizing pos fuel frames with
  | here hne hdecode =>
    cases fuel with
    | zero => omega
    | succ fuel =>
      have hpos : pos < buf.length := by
        rw [hrest, ne_eq, List.drop_eq_nil_iff] at hne
        omega
      rw [hrest] at hdecode
      exact ⟨_, by rw [decodeAllFrom_succ hpos, hdecode]⟩
  | @later bytes frame consumed hdecode hlater ih =>
    cases fuel with
    | zero => omega
    | succ fuel =>
      have hbounds := decode_framed.bounds hdecode
      rw [hrest, List.length_drop] at hbounds
      rw [hrest] at hdecode
      rw [decodeAllFrom_succ (by omega), hdecode]
      exact ih _ _ (by rw [hrest, List.drop_drop]) (by omega) _

section Responses

variable {conn : Client.H3Connection} {frames : List AnsweredFrame}

theorem readResponse_filter (frames : List AnsweredFrame) :
    Client.readResponse conn (frames.filter fun f => !f.isUnknown) =
      Client.readResponse conn frames := by
  rw [Client.readResponse, readMessage, readFrames_filter, readMessage]

theorem readResponse_first {part : Bytes × HeaderList} {rest : List AnsweredFrame}
    {headers : HeaderList} {body : Bytes}
    (h : Client.readResponse conn (sectionFrame part :: rest) = .ok (headers, body)) :
    headers = part.2 := by
  simp only [Client.readResponse, readMessage, readFrames] at h
  split at h
  · cases h
  · next parts hparts =>
    obtain ⟨hinitial, hheaders⟩ := (readFrames_follows hparts).headers rfl
    rw [hinitial] at h
    cases h
    exact hheaders

theorem readFrames_payloads {promise : Nat → Except HttpError HeaderList → Except HttpError Unit}
    (headers : HeaderList) (body : Bytes) (payloads : List (Bytes × Except HttpError HeaderList)) :
    readFrames promise ⟨headers, body, true, false⟩ (payloads.map dataFrame) =
      .ok ⟨headers, body ++ (payloads.map Prod.fst).flatten, true, false⟩ := by
  induction payloads generalizing body with
  | nil => simp [readFrames]
  | cons part rest ih =>
    have hstep : readFrame promise ⟨headers, body, true, false⟩ (dataFrame part) =
      .ok ⟨headers, body ++ part.1, true, false⟩ := rfl
    simp only [List.map_cons, readFrames, hstep, ih, List.flatten_cons, List.append_assoc]

theorem readResponse_whole (final : Bytes × HeaderList)
    (payloads : List (Bytes × Except HttpError HeaderList))
    (trailers : Option (Bytes × HeaderList)) :
    Client.readResponse conn (responseFrames [] final payloads trailers) =
      .ok (final.2, (payloads.map Prod.fst).flatten) := by
  simp only [Client.readResponse, readMessage, responseFrames, List.map_nil,
    readFrames, sectionFrame, readFrame, Bool.not_false, if_true, Except.map, readFrames_append,
    readFrames_payloads]
  cases trailers <;> rfl

theorem finalHeaders_front {front back : List AnsweredFrame}
    (h : finalHeaders (front ++ back) = (front ++ back).filter AnsweredFrame.isHeaders) :
    (finalHeaders front).length = front.countP AnsweredFrame.isHeaders := by
  rw [finalHeaders, List.filter_append] at h
  rw [finalHeaders, List.countP_eq_length_filter]
  cases hfront : front.filter AnsweredFrame.isHeaders with
  | nil => rfl
  | cons frame rest =>
    rw [hfront, List.cons_append, List.dropWhile_cons] at h
    rw [List.dropWhile_cons]
    split
    · next hinterim =>
      rw [if_pos hinterim] at h
      have hsuffix : frame :: (rest ++ back.filter AnsweredFrame.isHeaders) <:+
          rest ++ back.filter AnsweredFrame.isHeaders := h ▸ List.dropWhile_suffix _
      exact absurd hsuffix.length_le (Nat.not_succ_le_self _)
    · rfl

end Responses

def earlyHints : Bytes × HeaderList := ([], [(ascii ":status", ascii "103")])

def okSection : Bytes × HeaderList := ([], [(ascii ":status", ascii "200")])

end Starfish.Http.H3
