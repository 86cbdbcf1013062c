import Starfish.Http.H3.Messages
import Starfish.Http.H3.RequestMapping

/-!
# Requests from end to end

What the client's `send_request` gives to its stream is, on the server, the request it was
called with, once the stream has been read to its end.
-/

namespace Starfish.Http.H3

open Quic (Bytes Transport)
open H3.Client (HeaderList)

/-- `H3ServerConnection::recv_request`, from the bytes of the stream on. -/
def recvRequest (uris : UriParser) (answer : Nat → Except HttpError HeaderList)
    (accumulated : Bytes) : Outcome HttpError H3Request := do
  let parts ← readStream Server.readRequest answer accumulated
  requestFromH3Parts uris parts.1 parts.2

def messageFrames (headerBlock body : Bytes) : List H3Frame :=
  .headers headerBlock :: if body.isEmpty then [] else [.data body]

theorem encodeAll_of_encodeMessage {headerBlock body buf : Bytes}
    (h : encodeMessage headerBlock body = .ok buf) :
    encodeAll (messageFrames headerBlock body) = .ok buf ∧
      ∀ frame ∈ messageFrames headerBlock body, ∃ bytes, frame.encode = .ok bytes := by
  unfold encodeMessage at h
  unfold messageFrames
  cases hheaders : (H3Frame.headers headerBlock).encode with
  | error e => simp [hheaders] at h
  | ok headers =>
    cases body with
    | nil => simp_all [encodeAll, bind, Except.bind, pure, Except.pure]
    | cons b body =>
      cases hdata : (H3Frame.data (b :: body)).encode with
      | error e => simp [hheaders, hdata] at h
      | ok payload => simp_all [encodeAll, bind, Except.bind, pure, Except.pure]

/-- HEADERS and DATA frames that have been encoded can be read back. -/
theorem encodable_of_encode {frame : H3Frame} {payload bytes : Bytes}
    (hframe : frame = .headers payload ∨ frame = .data payload) (h : frame.encode = .ok bytes) :
    frame.Encodable := by
  obtain ⟨head, length, payload, -, hpayload, hlength, -⟩ := encode_eq_ok h
  have hlt : payload.length < 2 ^ 62 :=
    Nat.lt_of_le_sub_one (by decide) (decodeVarint_bounds (decodeVarint_encoded hlength [])).1
  refine ⟨?_, fun other hother => ?_, ?_⟩
  · rcases hframe with rfl | rfl <;> simp [H3Frame.integers]
  · rw [hpayload] at hother
    cases hother
    exact hlt
  · rcases hframe with rfl | rfl <;> simp

theorem readStream_message {headerBlock body buf : Bytes} {headers : HeaderList}
    {answer : Nat → Except HttpError HeaderList} (h : encodeMessage headerBlock body = .ok buf)
    (hanswer : answer 0 = .ok headers) :
    readStream Server.readRequest answer buf = .ok (headers, body) := by
  obtain ⟨hall, heach⟩ := encodeAll_of_encodeMessage h
  have hencodable : ∀ frame ∈ messageFrames headerBlock body, frame.Encodable := by
    intro frame hframe
    obtain ⟨bytes, hbytes⟩ := heach frame hframe
    unfold messageFrames at hframe
    cases hbody : body <;> simp [hbody] at hframe
    · exact encodable_of_encode (Or.inl hframe) hbytes
    · rcases hframe with hframe | hframe
      · exact encodable_of_encode (Or.inl hframe) hbytes
      · exact encodable_of_encode (Or.inr hframe) hbytes
  have hdecode : decodeAllFramesAtEof buf = some (.ok (messageFrames headerBlock body)) :=
    decodeAllFrom_encoded hencodable hall (List.nil_append buf).symm (Nat.lt_succ_self _) []
  rw [readStream, hdecode]
  cases body <;> simp [messageFrames, hanswer, Server.readRequest, readMessage, readFrames,
    readFrame, Except.map, Outcome.ofExcept, Client.ensureInitialHeadersSeen]

/-! ## The client -/

variable {t : Transport} {link : Link} {streamId offset : Nat} {afterwards : Work} {data : Bytes}

/-- FIN is given to the stream only with the whole message. -/
theorem sendOn_fin {id : Nat} {buf : Bytes} (h : (sendOn t link id buf afterwards).accepted =
    [.stream ⟨streamId, offset, true, data⟩]) : data = buf := by
  unfold sendOn Quic.Transport.streamSend at h
  split at h
  · cases h
  · next hsend =>
    split at hsend
    · cases hsend
    · split at hsend
      · cases hsend
      · split at hsend
        · cases hsend
        · split at hsend
          · cases hsend
          · dsimp only at hsend
            split at hsend <;> cases hsend
            · -- a short write does not carry FIN
              simp only [List.drop_left, List.map_cons, List.map_nil, List.cons.injEq,
                Quic.Frame.stream.injEq, Quic.StreamFrame.mk.injEq, Bool.true_and,
                beq_iff_eq] at h
              obtain ⟨⟨-, -, hlen, hdata⟩, -⟩ := h
              rw [← hdata, hlen, List.take_length]
            · simp at h

theorem sendRequest_fin {goawayReceived : Bool} {body : Option Bytes}
    {encodeHeaderBlock : Nat → Except HttpError Bytes}
    (h : (Client.sendRequest (.ok t) link goawayReceived encodeHeaderBlock body
      afterwards).accepted = [.stream ⟨streamId, offset, true, data⟩]) :
    ∃ headerBlock, encodeMessage headerBlock (body.getD []) = .ok data := by
  unfold Client.sendRequest at h
  dsimp only at h
  split at h
  · cases h
  · split at h
    · cases h
    · split at h
      · cases h
      · next headerBlock _ =>
        split at h
        · cases h
        · next hbuf => exact ⟨headerBlock, sendOn_fin h ▸ hbuf⟩

/-- Once `send_request` has given FIN to the stream, for a request that is not a CONNECT request,
the server's `recv_request` makes of the bytes of the stream the same request, with the headers
that the client adds. QPACK is assumed to give back the header list. -/
theorem request_reaches_server (uris : UriParser) (priority : Option H3Priority)
    {request : H3Request} (h : Acceptable uris request) (hmethod : request.method ≠ connectMethod)
    {goawayReceived : Bool} {encodeHeaderBlock : Nat → Except HttpError Bytes}
    (hsent : (Client.sendRequest (.ok t) link goawayReceived encodeHeaderBlock
      (requestIntoH3Parts priority request).2 afterwards).accepted =
        [.stream ⟨streamId, offset, true, data⟩])
    {answer : Nat → Except HttpError HeaderList}
    (hqpack : answer 0 = .ok (requestIntoH3Parts priority request).1) :
    recvRequest uris answer data = .ok { request with
      headers := request.headers.appendAll (addedHeaders priority request.headers.entries) } := by
  obtain ⟨headerBlock, hdata⟩ := sendRequest_fin hsent
  rw [recvRequest, readStream_message hdata hqpack, Outcome.ok_bind]
  exact h.requestFromH3Parts_eq priority hmethod

/-- A GET request with a body of two bytes, whose header block is one byte. -/
theorem get_request_reaches_server :
    recvRequest uriTexts (fun _ => .ok (requestIntoH3Parts none getRequest).1)
      [1, 1, 9, 0, 2, 1, 2] = .ok { getRequest with
        headers :=
          getRequest.headers.appendAll (addedHeaders none getRequest.headers.entries) } := by
  have hacceptable : Acceptable uriTexts getRequest := by
    refine ⟨by decide +kernel, by decide +kernel, by decide +kernel, _, rfl, by decide +kernel, ?_⟩
    rw [if_neg (by decide +kernel)]
    exact ⟨ascii "https", by decide +kernel, ascii "/", rfl, rfl, rfl⟩
  have hsent : (Client.sendRequest (.ok (Transport.new .client 1 0 100 100))
      ⟨.connected, some .oneRtt⟩ false (fun _ => .ok [9]) (requestIntoH3Parts none getRequest).2
      fun t => (.ok (), t)).accepted = [.stream ⟨0, 0, true, [1, 1, 9, 0, 2, 1, 2]⟩] := by
    decide +kernel
  exact request_reaches_server uriTexts none hacceptable (by decide +kernel) hsent rfl

end Starfish.Http.H3
