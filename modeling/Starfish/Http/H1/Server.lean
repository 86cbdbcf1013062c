import Starfish.Http.H1.RoundTrip

/-!
# HTTP/1.1 server

`H1Server` reads requests from a connection, one per call. Every call parses what it reads
with a parser of its own and reads into a buffer of its own, so what a read holds beyond the end
of the request is gone when the call returns.
-/

namespace Starfish.Http.H1

open Quic (Bytes)
open Incremental

/-- What the next reads of a stream return. A read of nothing, and every read after the last one,
says that the peer has closed the stream. -/
abbrev Reads := List (Except String Bytes)

structure H1Connection where
  stream : Reads
  keepAlive : Bool
  requestCount : Nat
  maxRequests : Option Nat
deriving DecidableEq

namespace H1Connection

def new (stream : Reads) : H1Connection := ⟨stream, true, 0, none⟩

def isReusable (conn : H1Connection) : Bool :=
  conn.keepAlive && !conn.maxRequests.any fun max => max ≤ conn.requestCount

end H1Connection

/-! ## Receiving -/

/-- How the reads for one request end. -/
inductive Received
  | request (parser : RequestParser)
  | requestAtEof (parser : RequestParser)
  | closed

/-- The stream is closed: cleanly before any data, or in the middle of a request. -/
def atEof (parser : RequestParser) (receivedAny : Bool) : Outcome HttpError Received :=
  if parser.isComplete then .ok (.requestAtEof parser)
  else if receivedAny then .error .unexpectedEof
  else .ok .closed

def readRequest : Reads → RequestParser → Bool → Option (Outcome HttpError Received) × Reads
  | [], parser, receivedAny => (some (atEof parser receivedAny), [])
  | .error e :: rest, _, _ => (some (.error (.io e)), rest)
  | .ok data :: rest, parser, receivedAny =>
    if data = [] then (some (atEof parser receivedAny), rest)
    else match RequestParser.feed parser data with
      | some (.ok ((_, true), next)) => (some (.ok (.request next)), rest)
      | some (.ok ((_, false), next)) => readRequest rest next true
      | some (.error e) => (some (.error e), rest)
      | some .panic => (some .panic, rest)
      | none => (none, rest)

def recvRequest (parseUri : Bytes → Except Bytes Bytes) (conn : H1Connection) :
    Option (Outcome HttpError (Option Request)) × H1Connection :=
  match readRequest conn.stream RequestParser.new false with
  | (some (.ok (.request parser)), stream) =>
    (some (Outcome.ofExcept ((parser.takeRequest parseUri).map some)), { conn with
      stream, keepAlive := RequestParser.keepAlive parser,
      requestCount := conn.requestCount + 1 })
  | (some (.ok (.requestAtEof parser)), stream) =>
    (some (Outcome.ofExcept ((parser.takeRequest parseUri).map some)), { conn with stream })
  | (some (.ok .closed), stream) => (some (.ok none), { conn with stream })
  | (some (.error e), stream) => (some (.error e), { conn with stream })
  | (some .panic, stream) => (some .panic, { conn with stream })
  | (none, stream) => (none, { conn with stream })

/-- The answers of `n` calls. -/
def recvAll (parseUri : Bytes → Except Bytes Bytes) :
    Nat → H1Connection → List (Option (Outcome HttpError (Option Request)))
  | 0, _ => []
  | n + 1, conn =>
    let r := recvRequest parseUri conn
    r.1 :: recvAll parseUri n r.2

/-! ## Reads and the byte machine -/

def received (reads : List Bytes) : Reads := reads.map Except.ok

abbrev requestMachine : Machine RequestParser UInt8 HttpError :=
  MessageParser.machine RequestParser.grammar

abbrev Open (p : RequestParser) : Prop := MessageParser.Ready RequestParser.grammar FixedReady p

variable {p : RequestParser}

theorem readRequest_cons {read : Bytes} (hread : read ≠ []) (rest : Reads) (hp : Open p)
    (any : Bool) :
    readRequest (.ok read :: rest) p any =
      match requestMachine.run p read with
      | .ok (_, q) =>
        if q.isComplete then (some (.ok (.request q)), rest) else readRequest rest q true
      | .error e => (some (.error e), rest)
      | .panic => (some .panic, rest) := by
  rw [readRequest, if_neg hread, RequestParser.feed,
    MessageParser.feed_eq RequestParser.lawful hp, Machine.feed]
  cases requestMachine.run p read with
  | ok r =>
    obtain ⟨n, q⟩ := r
    have hdone : requestMachine.done q = q.isComplete := rfl
    cases hq : q.isComplete <;> simp [Outcome.map, hdone, hq]
  | error e => rfl
  | panic => rfl

variable {reads : List Bytes}

theorem readRequest_fst (hne : ∀ r ∈ reads, r ≠ []) (hp : Open p) (hopen : p.isComplete = false)
    (any : Bool) :
    (readRequest (received reads) p any).1 = some ((requestMachine.run p reads.flatten).bind
      fun r => if r.2.isComplete then .ok (.request r.2)
        else atEof r.2 (any || !reads.isEmpty)) := by
  induction reads generalizing p any with
  | nil => simp [received, readRequest, Outcome.bind, hopen]
  | cons read rest ih =>
    rw [List.forall_mem_cons] at hne
    change (readRequest (.ok read :: received rest) p any).1 = _
    rw [readRequest_cons hne.1 _ hp, List.flatten_cons, Machine.run_append]
    cases hrun : requestMachine.run p read with
    | ok r =>
      obtain ⟨n, q⟩ := r
      rw [followed_ok]
      cases hq : q.isComplete with
      | true =>
        rw [Machine.run_of_done _ hq]
        simp [Outcome.bind, hq]
      | false =>
        have hready : Open q := run_keeps (MessageParser.step_ready RequestParser.lawful) hp hrun
        simp only [hq, Bool.false_eq_true, if_false, ih hne.2 hready hq]
        cases requestMachine.run q rest.flatten <;> simp [Outcome.bind, shift, Outcome.map]
    | error e => rfl
    | panic => rfl

theorem readRequest_append (hne : ∀ r ∈ reads, r ≠ []) {q : RequestParser} (hp : Open p)
    (hopen : p.isComplete = false) {n : Nat}
    (hrun : requestMachine.run p reads.flatten = .ok (n, q)) (hq : q.isComplete = false)
    (stream : Reads) (any : Bool) :
    readRequest (received reads ++ stream) p any =
      readRequest stream q (any || !reads.isEmpty) := by
  induction reads generalizing p n any with
  | nil =>
    cases hrun
    simp [received]
  | cons read rest ih =>
    rw [List.forall_mem_cons] at hne
    obtain ⟨k, u, l, hread, hrest, -⟩ := Machine.run_append_eq_ok _ hrun
    have hu : u.isComplete = false := by
      by_contra hdone
      rw [Bool.not_eq_false] at hdone
      rw [Machine.run_of_done _ hdone] at hrest
      cases hrest
      rw [hdone] at hq
      cases hq
    have hready : Open u := run_keeps (MessageParser.step_ready RequestParser.lawful) hp hread
    change readRequest (.ok read :: (received rest ++ stream)) p any = _
    rw [readRequest_cons hne.1 _ hp, hread]
    simp only [hu]
    rw [ih hne.2 hready hu hrest]
    simp

theorem readRequest_eq (hne : ∀ r ∈ reads, r ≠ []) {n : Nat} {q : RequestParser}
    (hrun : requestMachine.run RequestParser.new reads.flatten = .ok (n, q))
    (hq : q.isComplete = true) :
    ∃ front piece back, reads = front ++ piece :: back ∧ front.flatten.length < n ∧
      n ≤ front.flatten.length + piece.length ∧
      readRequest (received reads) RequestParser.new false =
        (some (.ok (.request q)), received back) := by
  have hnew : RequestParser.new.isComplete = false := rfl
  have hpos : 0 < n := by
    refine Machine.run_pos _ hnew (fun hnil => ?_) hrun
    rw [hnil] at hrun
    cases hrun
    cases hq
  obtain ⟨front, piece, back, rfl, hlt, hle⟩ := exists_piece reads hpos (Machine.run_length _ hrun).1
  refine ⟨front, piece, back, rfl, hlt, hle, ?_⟩
  have hpieces : piece ≠ [] := hne piece (by simp)
  rw [List.flatten_append] at hrun
  obtain ⟨u, hfront, hu, hrest⟩ := Machine.run_of_append_lt _ hrun hlt
  have hlast := Machine.run_of_append_le _ hrest hq (by omega)
  have hready : Open u := run_keeps (MessageParser.step_ready RequestParser.lawful)
    RequestParser.new_ready hfront
  have hsplit : received (front ++ piece :: back) = received front ++ .ok piece :: received back := by
    simp [received]
  rw [hsplit, readRequest_append (fun r hr => hne r (by simp [hr])) RequestParser.new_ready hnew
    hfront hu, readRequest_cons hpieces _ hready, hlast]
  simp [hq]

end Starfish.Http.H1
