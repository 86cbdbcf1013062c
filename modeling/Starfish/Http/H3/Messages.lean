import Starfish.Http.H3.FrameCodec
import Starfish.Quic.Connection.Streams

/-!
# Sending messages

A request or a response is encoded into one buffer, HEADERS and DATA, and given to the QUIC
stream in one call of `stream_send` with FIN. That call takes as many bytes as the windows of
the stream and of the connection allow and returns their number, which the callers here do not
look at.
-/

namespace Starfish.Http.H3

open Quic (Bytes Frame StreamFrame Transport ConnectionState ApplicationPacketKind)

def encodeMessage (headerBlock body : Bytes) : Except HttpError Bytes :=
  match (H3Frame.headers headerBlock).encode with
  | .error e => .error e
  | .ok headers =>
    if body.isEmpty then .ok headers
    else
      match (H3Frame.data body).encode with
      | .error e => .error e
      | .ok payload => .ok (headers ++ payload)

/-- What the state of the QUIC connection lets the application send. -/
structure Link where
  state : ConnectionState
  kind : Option ApplicationPacketKind

/-- The answer of a call, and the frames that its `stream_send` queued. -/
structure Sent (α : Type) where
  result : Except HttpError α
  accepted : List Frame := []

abbrev Work := Transport → Except HttpError Unit × Transport

/-- `stream_send` of a whole message, followed by other work. -/
def sendOn (t : Transport) (link : Link) (streamId : Nat) (buf : Bytes) (afterwards : Work) :
    Sent Unit :=
  match t.streamSend link.state link.kind streamId buf true with
  | (.error e, _) => { result := .error (.quic e) }
  | (.ok _, u) => {
      result := (afterwards u).1
      accepted := (u.pendingFrames.drop t.pendingFrames.length).map Prod.snd }

namespace Client

/-- `H3Connection::send_request`. `prepared` is the transport after `open_control_stream` and
`poll_control`, `encodeHeaderBlock` the QPACK encoder with the headers, `afterwards` the flushes. -/
def sendRequest (prepared : Except HttpError Transport) (link : Link) (goawayReceived : Bool)
    (encodeHeaderBlock : Nat → Except HttpError Bytes) (body : Option Bytes) (afterwards : Work) :
    Sent Nat :=
  match prepared with
  | .error e => { result := .error e }
  | .ok t =>
    if goawayReceived then { result := .error .connectionClosed }
    else
      match t.streams.openBidi with
      | .error e => { result := .error (.quic e) }
      | .ok (streamId, streams) =>
        match encodeHeaderBlock streamId with
        | .error e => { result := .error e }
        | .ok headerBlock =>
          match encodeMessage headerBlock (body.getD []) with
          | .error e => { result := .error e }
          | .ok buf =>
            let sent := sendOn { t with streams := streams } link streamId buf afterwards
            { result := sent.result.map fun _ => streamId, accepted := sent.accepted }

def sendResponse (prepared : Except HttpError Transport) (link : Link) (streamId : Nat)
    (encodeHeaderBlock : Nat → Except HttpError Bytes) (body : Option Bytes) (afterwards : Work) :
    Sent Unit :=
  match prepared with
  | .error e => { result := .error e }
  | .ok t =>
    match encodeHeaderBlock streamId with
    | .error e => { result := .error e }
    | .ok headerBlock =>
      match encodeMessage headerBlock (body.getD []) with
      | .error e => { result := .error e }
      | .ok buf => sendOn t link streamId buf afterwards

end Client

namespace Server

def responseHeaders (response : Response) : List (Bytes × Bytes) :=
  (ascii ":status", decimal response.status) ::
    response.headers.entries.filterMap fun h => (toStr h.2).map fun value => (h.1, value)

/-- `H3ServerConnection::send_response`. Before the response is written, the data of the QPACK
streams is sent. -/
def sendResponse (prepared : Except HttpError Transport) (link : Link) (streamId : Nat)
    (encodeHeaderBlock : Nat → List (Bytes × Bytes) → Except HttpError Bytes) (response : Response)
    (flushQpackStreamData afterwards : Work) : Sent Unit :=
  match prepared with
  | .error e => { result := .error e }
  | .ok t =>
    match encodeHeaderBlock streamId (responseHeaders response) with
    | .error e => { result := .error e }
    | .ok headerBlock =>
      match encodeMessage headerBlock response.body with
      | .error e => { result := .error e }
      | .ok buf =>
        match flushQpackStreamData t with
        | (.error e, _) => { result := .error e }
        | (.ok (), t) => sendOn t link streamId buf afterwards

end Server

/-! ## Whole messages -/

def Whole (accepted : List Frame) (streamId : Nat) (bytes : Bytes) : Prop :=
  ∃ offset, accepted = [.stream ⟨streamId, offset, true, bytes⟩]

def Window (t : Transport) (streamId window : Nat) : Prop :=
  ∃ st, t.streams.get streamId = some st ∧
    window = min st.flowControl.sendWindow t.flowControl.sendWindow

variable {t : Transport} {link : Link} {streamId : Nat} {afterwards : Work}

theorem sendOn_whole_iff {buf : Bytes} (h : (sendOn t link streamId buf afterwards).result = .ok ())
    :
    ∃ window, Window t streamId window ∧
      (Whole (sendOn t link streamId buf afterwards).accepted streamId buf ↔
        buf.length ≤ window) := by
  unfold sendOn at h ⊢
  generalize hsend : t.streamSend link.state link.kind streamId buf true = sent at h ⊢
  obtain ⟨result, u⟩ := sent
  cases result with
  | error e => cases h
  | ok len =>
    unfold Quic.Transport.streamSend at hsend
    split at hsend
    · cases hsend
    · split at hsend
      · cases hsend
      · next st hst =>
        refine ⟨_, ⟨st, hst, rfl⟩, ?_⟩
        split at hsend
        · cases hsend
        · split at hsend
          · cases hsend
          · have hlen : t.writeLen st buf =
              min buf.length (min st.flowControl.sendWindow t.flowControl.sendWindow) := rfl
            by_cases hfits :
                buf.length ≤ min st.flowControl.sendWindow t.flowControl.sendWindow
            · have hall : t.writeLen st buf = buf.length := by omega
              rw [hall] at hsend
              simp only [BEq.rfl, Bool.and_self, Bool.or_true] at hsend
              cases hsend
              simp only [hfits, iff_true]
              exact ⟨st.sendOffset, by simp⟩
            · simp only [hfits, iff_false]
              rintro ⟨offset, hwhole⟩
              grind

variable {encodeHeaderBlock : Nat → Except HttpError Bytes} {body : Option Bytes}

theorem Client.sendRequest_whole_iff {goawayReceived : Bool}
    (h : (sendRequest (.ok t) link goawayReceived encodeHeaderBlock body afterwards).result = .ok streamId)
    : ∃ streams headerBlock buf window, t.streams.openBidi = .ok (streamId, streams) ∧
      encodeHeaderBlock streamId = .ok headerBlock ∧
      encodeMessage headerBlock (body.getD []) = .ok buf ∧
      Window { t with streams := streams } streamId window ∧
      (Whole (sendRequest (.ok t) link goawayReceived encodeHeaderBlock body afterwards).accepted
        streamId buf ↔ buf.length ≤ window) := by
  unfold sendRequest at h ⊢
  dsimp only at h ⊢
  split at h
  · cases h
  · next hgoaway =>
    cases hopen : t.streams.openBidi with
    | error e => simp [hopen] at h
    | ok opened =>
      obtain ⟨id, streams⟩ := opened
      simp only [hopen] at h ⊢
      cases hblock : encodeHeaderBlock id with
      | error e => simp [hblock] at h
      | ok headerBlock =>
        simp only [hblock] at h ⊢
        cases hbuf : encodeMessage headerBlock (body.getD []) with
        | error e => simp [hbuf] at h
        | ok buf =>
          simp only [hbuf] at h ⊢
          cases hsent : (sendOn { t with streams := streams } link id buf
              afterwards).result with
          | error e =>
            rw [hsent] at h
            cases h
          | ok u =>
            rw [hsent] at h
            cases h
            grind [sendOn_whole_iff]

theorem Client.sendResponse_whole_iff
    (h : (sendResponse (.ok t) link streamId encodeHeaderBlock body afterwards).result = .ok ()) :
    ∃ headerBlock buf window, encodeHeaderBlock streamId = .ok headerBlock ∧
      encodeMessage headerBlock (body.getD []) = .ok buf ∧ Window t streamId window ∧
      (Whole (sendResponse (.ok t) link streamId encodeHeaderBlock body afterwards).accepted
        streamId buf ↔ buf.length ≤ window) := by
  grind [sendResponse, sendOn_whole_iff]

theorem Server.sendResponse_whole_iff
    {encodeHeaderBlock : Nat → List (Bytes × Bytes) → Except HttpError Bytes} {response : Response}
    {flushQpackStreamData : Work}
    (h : (sendResponse (.ok t) link streamId encodeHeaderBlock response flushQpackStreamData afterwards).result = .ok ())
    :
    ∃ headerBlock buf u window,
      encodeHeaderBlock streamId (responseHeaders response) = .ok headerBlock ∧
      encodeMessage headerBlock response.body = .ok buf ∧
      flushQpackStreamData t = (.ok (), u) ∧ Window u streamId window ∧
      (Whole (sendResponse (.ok t) link streamId encodeHeaderBlock response flushQpackStreamData
        afterwards).accepted streamId buf ↔ buf.length ≤ window) := by
  unfold sendResponse at h ⊢
  cases hblock : encodeHeaderBlock streamId (responseHeaders response) with
  | error e => simp [hblock] at h
  | ok headerBlock =>
    grind [sendOn_whole_iff]

/-- A call that succeeds has given the whole message to the stream if and only if the windows of
the stream and of the connection had room for it. -/
theorem messages_sent_whole_iff (t : Transport) (link : Link) (afterwards : Work)
    (encodeHeaderBlock : Nat → Except HttpError Bytes) (body : Option Bytes) (streamId : Nat) :
    (∀ goawayReceived : Bool,
      (Client.sendRequest (.ok t) link goawayReceived encodeHeaderBlock body afterwards).result =
        .ok streamId →
      ∃ streams headerBlock buf window, t.streams.openBidi = .ok (streamId, streams) ∧
        encodeHeaderBlock streamId = .ok headerBlock ∧
        encodeMessage headerBlock (body.getD []) = .ok buf ∧
        Window { t with streams := streams } streamId window ∧
        (Whole (Client.sendRequest (.ok t) link goawayReceived encodeHeaderBlock body
          afterwards).accepted streamId buf ↔ buf.length ≤ window)) ∧
    ((Client.sendResponse (.ok t) link streamId encodeHeaderBlock body afterwards).result =
        .ok () →
      ∃ headerBlock buf window, encodeHeaderBlock streamId = .ok headerBlock ∧
        encodeMessage headerBlock (body.getD []) = .ok buf ∧ Window t streamId window ∧
        (Whole (Client.sendResponse (.ok t) link streamId encodeHeaderBlock body
          afterwards).accepted streamId buf ↔ buf.length ≤ window)) ∧
    ∀ (encodeHeaderList : Nat → List (Bytes × Bytes) → Except HttpError Bytes)
        (response : Response) (flushQpackStreamData : Work),
      (Server.sendResponse (.ok t) link streamId encodeHeaderList response flushQpackStreamData
        afterwards).result = .ok () →
      ∃ headerBlock buf u window,
        encodeHeaderList streamId (Server.responseHeaders response) = .ok headerBlock ∧
        encodeMessage headerBlock response.body = .ok buf ∧
        flushQpackStreamData t = (.ok (), u) ∧ Window u streamId window ∧
        (Whole (Server.sendResponse (.ok t) link streamId encodeHeaderList response
          flushQpackStreamData afterwards).accepted streamId buf ↔ buf.length ≤ window) :=
  ⟨fun _ h => Client.sendRequest_whole_iff h, fun h => Client.sendResponse_whole_iff h,
    fun _ _ _ h => Server.sendResponse_whole_iff h⟩

/-- A connection whose peer lets streams carry 4 bytes. -/
def narrow : Transport := Transport.new .client 1 0 4 100

/-- A request of 2 bytes on a stream with a window of 4 is sent whole. -/
theorem request_sent_whole :
    Whole (Client.sendRequest (.ok narrow) ⟨.connected, some .oneRtt⟩ false (fun _ => .ok [])
      none fun t => (.ok (), t)).accepted 0 [1, 0] := by
  obtain ⟨streams, headerBlock, buf, window, hopen, hblock, hbuf, ⟨st, hst, rfl⟩, hiff⟩ :=
    (messages_sent_whole_iff narrow ⟨.connected, some .oneRtt⟩ (fun t => (.ok (), t))
      (fun _ => .ok []) none 0).1 false (by decide +kernel)
  cases hblock
  obtain rfl : [1, 0] = buf := Except.ok.inj hbuf
  refine hiff.mpr ?_
  obtain rfl : _ = streams := (Prod.mk.inj (Except.ok.inj hopen)).2
  obtain rfl : _ = st := Option.some.inj hst
  decide +kernel

/-- A request of 8 bytes on a stream with a window of 4: the first half is sent, without FIN, and
the call succeeds. -/
theorem request_cut_short :
    (Client.sendRequest (.ok narrow) ⟨.connected, some .oneRtt⟩ false (fun _ => .ok [1, 2])
        (some [3, 4]) fun t => (.ok (), t)).result = .ok 0 ∧
      (Client.sendRequest (.ok narrow) ⟨.connected, some .oneRtt⟩ false (fun _ => .ok [1, 2])
        (some [3, 4]) fun t => (.ok (), t)).accepted =
        [.stream ⟨0, 0, false, [1, 2, 1, 2]⟩] := by
  decide +kernel

end Starfish.Http.H3
