import Starfish.Http.H1.Progress
import Starfish.Http.H1.Server

/-!
# HTTP/1.1 client

`H1Client::send` writes a request and reads the response, discarding informational ones. A read
that goes on behind an informational response is fed to the next parser; what a read holds
behind that is dropped with the call's buffer. The decoders of the content codings are a
parameter, and writing is left out.
-/

namespace Starfish.Http.H1

open Quic (Bytes)
open Incremental
open MessageParser

/-! ## Content codings -/

def responseMustNotHaveBody (response : Response) (method : Bytes) : Bool :=
  method == ascii "HEAD" || response.isInformational || response.status == 204 ||
    response.status == 304

def contentEncodings (value : Bytes) : List Bytes :=
  (((splitOn 0x2c value).map trim).filter fun encoding =>
    !encoding.isEmpty && encoding != ascii "identity").reverse

/-- Undo the content codings of a response body; `decodeBody` knows the single codings. -/
def decodeResponseBodyForRequest (decodeBody : Bytes → Bytes → Except HttpError Bytes)
    (response : Response) (method : Bytes) : Except HttpError Response :=
  if responseMustNotHaveBody response method then .ok response
  else match (response.headers.getAll (ascii "content-encoding")).head?.bind toStr with
    | none => .ok response
    | some value => do
        let body ← (contentEncodings value).foldlM (fun body encoding => decodeBody encoding body)
          response.body
        let headers := (response.headers.remove (ascii "content-encoding")).remove contentLength
        .ok { response with body, headers := headers.append contentLength (decimal body.length) }

/-! ## Reading a response -/

/-- Feed the parser of a response. The response to a `HEAD` request ends with its head. -/
def feedResponse (head : Bool) (parser : ResponseParser) (data : Bytes) :
    Option (Outcome HttpError ((Nat × Bool) × ResponseParser)) :=
  (ResponseParser.feed parser data).map fun answer => answer.map fun r =>
    if head && r.2.isHeadComplete then ((r.1.1, true), r.2.completeWithoutBody) else r

/-- The parser of the response that is returned. `fed` and `atEof` are not in the source: they
record the bytes that were read for this parser, and that the stream ended with them. -/
structure Answered where
  parser : ResponseParser
  fed : Bytes
  atEof : Bool
deriving DecidableEq

/-- The stream is closed, which ends a body that lasts until then. -/
def responseAtEof (parser : ResponseParser) (fed : Bytes) : Outcome HttpError Answered :=
  if parser.signalEof.isComplete then .ok ⟨parser.signalEof, fed, true⟩ else .error .unexpectedEof

/-- The loop of `send`: read and feed until a response is complete that is not informational. -/
def readResponse (head : Bool) :
    Reads → ResponseParser → Bytes → Option (Outcome HttpError Answered) × Reads
  | [], parser, fed => (some (responseAtEof parser fed), [])
  | .error e :: rest, _, _ => (some (.error (.io e)), rest)
  | .ok data :: rest, parser, fed =>
    if data = [] then (some (responseAtEof parser fed), rest)
    else match feedResponse head parser data with
      | none => (none, rest)
      | some (.error e) => (some (.error e), rest)
      | some .panic => (some .panic, rest)
      | some (.ok ((_, false), next)) => readResponse head rest next (fed ++ data)
      | some (.ok ((consumed, true), next)) =>
        match next.takeResponse with
        | .error e => (some (.error e), rest)
        | .ok response =>
          if response.isInformational then
            if consumed < data.length then
              -- the rest of the read belongs to the next response
              match feedResponse head ResponseParser.new (data.drop consumed) with
              | none => (none, rest)
              | some (.error e) => (some (.error e), rest)
              | some .panic => (some .panic, rest)
              | some (.ok ((_, true), last)) =>
                (some (.ok ⟨last, data.drop consumed, false⟩), rest)
              | some (.ok ((_, false), next)) =>
                readResponse head rest next (data.drop consumed)
            else readResponse head rest ResponseParser.new []
          else (some (.ok ⟨next, fed ++ data, false⟩), rest)

def H1Connection.answered (conn : H1Connection) (parser : ResponseParser) (stream : Reads) :
    H1Connection where
  stream := stream
  keepAlive := ResponseParser.keepAlive parser
  requestCount := conn.requestCount + 1
  maxRequests := parser.keepAliveMax.or conn.maxRequests

def send (decodeBody : Bytes → Bytes → Except HttpError Bytes) (conn : H1Connection)
    (method : Bytes) : Option (Outcome HttpError Response) × H1Connection :=
  match readResponse (method == ascii "HEAD") conn.stream ResponseParser.new [] with
  | (some (.ok answer), stream) =>
    (some (Outcome.ofExcept (answer.parser.takeResponse.bind fun response =>
      decodeResponseBodyForRequest decodeBody response method)),
      conn.answered answer.parser stream)
  | (some (.error e), stream) => (some (.error e), { conn with stream })
  | (some .panic, stream) => (some .panic, { conn with stream })
  | (none, stream) => (none, { conn with stream })

/-! ## The end of a response -/

abbrev responseMachine : Machine ResponseParser UInt8 HttpError :=
  MessageParser.machine ResponseParser.grammar

def ended (head : Bool) (p : ResponseParser) : Bool :=
  p.isComplete || (head && p.isHeadComplete)

def answerMachine (head : Bool) : Machine ResponseParser UInt8 HttpError where
  step := responseMachine.step
  done := ended head

abbrev ResponseOpen (p : ResponseParser) : Prop :=
  MessageParser.Ready ResponseParser.grammar ResponseParser.BodyReady p

def finished (head : Bool) (p : ResponseParser) : ResponseParser :=
  if head && p.isHeadComplete then p.completeWithoutBody else p

theorem isHeadComplete_iff (p : ResponseParser) :
    p.isHeadComplete = true ↔ p.start.status.isSome = true ∧ PastHead p := by
  rw [ResponseParser.isHeadComplete, Bool.and_eq_true]
  refine and_congr_right fun _ => ?_
  cases hstate : p.state <;> simp [PastHead, PastStart, hstate]

variable {p q : ResponseParser} {data : Bytes} {n : Nat} {head : Bool}

theorem run_isHeadComplete (hp : ResponseOpen p) (hhead : p.isHeadComplete = true)
    (hrun : responseMachine.run p data = .ok (n, q)) :
    q.isHeadComplete = true ∧ q.start = p.start ∧ q.headers = p.headers := by
  rw [isHeadComplete_iff] at hhead
  have hstart := run_start_eq ResponseParser.lawful ResponseParser.tame hp hhead.2.1 hrun
  have hheaders := run_headers_eq ResponseParser.lawful ResponseParser.tame hp hhead.2 hrun
  have hpast : PastHead q := by
    refine run_invariant (I := PastHead) ResponseParser.lawful ?_ hp hhead.2 hrun
    intro r b t ended hr hpast hbyte
    exact ((byte_changes ResponseParser.tame hr hbyte).head hpast).1
  grind [isHeadComplete_iff]

theorem answerMachine_keeps {I : ResponseParser → Prop}
    (hI : ∀ r b t e, ResponseOpen r → r.state ≠ .complete → I r →
      byte ResponseParser.grammar r b = .ok (t, e) → I t) (hp : ResponseOpen p) (hIp : I p)
    (hrun : (answerMachine head).run p data = .ok (n, q)) : ResponseOpen q ∧ I q := by
  refine run_keeps (I := fun r => ResponseOpen r ∧ I r) ?_ ⟨hp, hIp⟩ hrun
  intro r b t hr hopen hstep
  change ended head r = false at hopen
  rw [ended, Bool.or_eq_false_iff] at hopen
  obtain ⟨⟨t', e⟩, hbyte, rfl⟩ := Outcome.map_eq_ok.mp hstep
  exact ⟨step_ready ResponseParser.lawful r b _ hr.1 hopen.1 hstep,
    hI r b _ e hr.1 (beq_eq_false_iff_ne.mp hopen.1) hr.2 hbyte⟩

theorem answerMachine_ready (hp : ResponseOpen p)
    (hrun : (answerMachine head).run p data = .ok (n, q)) : ResponseOpen q :=
  (answerMachine_keeps (I := fun _ => True) (fun _ _ _ _ _ _ h _ => h) hp trivial hrun).1

theorem run_eq_followed (head : Bool) (p : ResponseParser) (data : Bytes) :
    responseMachine.run p data =
      followed ((answerMachine head).run p data) fun n q => responseMachine.run q (data.drop n) := by
  refine responseMachine.run_of_stops (answerMachine head) rfl (fun q hq => ?_) p data
  change q.isComplete = true at hq
  change ended head q = true
  rw [ended, hq, Bool.true_or]

theorem feedResponse_eq (head : Bool) (hp : ResponseOpen p) (data : Bytes) :
    feedResponse head p data = some (match (answerMachine head).run p data with
      | .error e => .error e
      | .panic => .panic
      | .ok (n, q) =>
        if ended head q then (responseMachine.run q (data.drop n)).map fun r =>
          ((n + r.1, true), finished head r.2)
        else .ok ((n, false), q)) := by
  rw [feedResponse, ResponseParser.feed, MessageParser.feed_eq ResponseParser.lawful hp,
    Option.map_some, Machine.feed, run_eq_followed head p data]
  cases hrun : (answerMachine head).run p data with
  | error e => rfl
  | panic => rfl
  | ok r =>
    obtain ⟨n, q⟩ := r
    have hq := answerMachine_ready hp hrun
    rw [followed_ok]
    dsimp only
    by_cases hended : ended head q = true
    · rw [if_pos hended]
      cases hrest : responseMachine.run q (data.drop n) with
      | error e => rfl
      | panic => rfl
      | ok r =>
        obtain ⟨k, t⟩ := r
        simp only [shift_ok, Outcome.map]
        rw [ended, Bool.or_eq_true] at hended
        rcases hended with hcomplete | hhead
        · -- a complete parser consumes nothing more
          rw [Machine.run_of_done _ hcomplete] at hrest
          cases hrest
          have hdone : responseMachine.done q = true := hcomplete
          grind [finished]
        · rw [Bool.and_eq_true] at hhead
          have ht := (run_isHeadComplete hq hhead.2 hrest).1
          simp [finished, hhead.1, ht]
    · rw [if_neg hended]
      rw [Bool.not_eq_true] at hended
      have hall := (Machine.run_length _ hrun).2 hended
      rw [hall, List.drop_length, Machine.run_nil]
      rw [ended, Bool.or_eq_false_iff] at hended
      have hdone : responseMachine.done q = false := hended.1
      simp [Outcome.map, hended.2, hdone]

end Starfish.Http.H1
