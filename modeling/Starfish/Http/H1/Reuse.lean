import Starfish.Http.H1.Client

/-!
# Reusing a connection

When a connection that is reported reusable after a response stands at a message boundary. The
client looks at the version, the first `Connection` header and the request limit only: not at how
the response ended, not at the other `Connection` values, and not at what the last read held
behind the response.
-/

namespace Starfish.Http.H1

open Quic (Bytes)
open Incremental
open MessageParser

/-! ## How a response is delimited -/

def Framed (p : ResponseParser) : Prop :=
  p.start.status.any ResponseParser.statusWithoutBody = true ∨
    hasFinalChunkedTransferCoding p.headers = true ∨
    ∃ len, parseContentLength p.headers = .ok (some len)

/-- A body lasts until the connection closes exactly if the head does not say where it ends. -/
structure FramingRead (p : ResponseParser) : Prop where
  status : PastStart p → p.start.status.isSome = true
  before : ¬PastHead p → p.bodyKind = .none
  framed : PastHead p → (p.bodyKind = .untilClose ↔ ¬Framed p)
  opened : PastHead p → p.bodyKind = .untilClose → p.state = .body

variable {p q : ResponseParser} {b : UInt8}

theorem framed_congr (hstart : q.start = p.start)
    (hheaders : q.headers = p.headers) : Framed q ↔ Framed p := by
  unfold Framed
  rw [hstart, hheaders]

theorem determineBodyKind_framing (h : ResponseParser.determineBodyKind p = .ok q) :
    PastHead q ∧ (q.bodyKind = .untilClose ↔ ¬Framed q) ∧
      (q.bodyKind = .untilClose → q.state = .body) := by
  unfold ResponseParser.determineBodyKind at h
  split at h
  · next hstatus =>
    cases h
    have hframed : Framed { p with bodyKind := .none, state := .complete } := .inl hstatus
    exact ⟨by simp [PastHead, PastStart], iff_of_false (by simp) (not_not_intro hframed), by simp⟩
  · next hstatus =>
    unfold frameByHeaders at h
    split at h
    · next hchunked =>
      cases h
      have hframed : Framed { p with bodyKind := .chunked, state := .chunkSize } :=
        .inr (.inl hchunked)
      exact ⟨by simp [PastHead, PastStart], iff_of_false (by simp) (not_not_intro hframed), by simp⟩
    · next hchunked =>
      split at h
      · cases h
      · next len hlen =>
        have hframed : ∀ q : ResponseParser, q.headers = p.headers → Framed q :=
          fun q hq => .inr (.inr ⟨len, by rw [hq]; exact hlen⟩)
        split at h <;> cases h <;>
          exact ⟨by simp [PastHead, PastStart],
            iff_of_false (by simp) (not_not_intro (hframed _ rfl)), by simp⟩
      · next hlen =>
        cases h
        refine ⟨by simp [PastHead, PastStart], iff_of_true rfl ?_, fun _ => rfl⟩
        rintro (hs | hc | ⟨len, hl⟩)
        all_goals grind

theorem byte_bodyKind {ended : Bool} (hp : ResponseOpen p)
    (hpast : PastHead p) (h : byte ResponseParser.grammar p b = .ok (q, ended)) :
    q.bodyKind = p.bodyKind ∧ (p.state = .body → p.bodyKind = .untilClose → q.state = .body) := by
  rw [byte] at h
  cases hstate : p.state with
  | requestLine => exact absurd hstate hpast.1.1
  | statusLine => exact absurd hstate hpast.1.2
  | headerLine => exact absurd hstate hpast.2
  | complete =>
    grind
  | body =>
    simp only [hstate] at h
    rcases hp.body hstate with hfixed | hclose
    · rw [bodyByte_of_fixed ResponseParser.readBody_of_fixed hstate hfixed] at h
      cases h
      refine ⟨rfl, fun _ hclose => ?_⟩
      obtain ⟨-, len, hkind⟩ := hfixed
      rw [hkind] at hclose
      cases hclose
    · grind [ResponseParser.bodyByte_untilClose]
  | chunkSize =>
    simp only [hstate] at h
    refine ⟨?_, by rintro ⟨⟩⟩
    rw [chunkSizeByte] at h
    split at h
    · cases h
    · cases ended with
      | false => rw [(onLine_eq_false h).1]
      | true =>
        obtain ⟨content, -, hfinish⟩ := onLine_eq_true h
        obtain ⟨size, -, hq⟩ := Outcome.map_eq_ok.mp hfinish
        rw [← hq]
        split <;> rfl
  | chunkData remaining =>
    simp only [hstate] at h
    rw [chunkDataByte_eq hstate (hp.chunkData _ hstate)] at h
    cases h
    exact ⟨rfl, by rintro ⟨⟩⟩
  | chunkTrailer =>
    simp only [hstate] at h
    refine ⟨?_, by rintro ⟨⟩⟩
    cases ended with
    | false => rw [(onLine_eq_false h).1]
    | true =>
      obtain ⟨content, -, hfinish⟩ := onLine_eq_true h
      cases hfinish
      rfl

theorem parseStatusLine_status {line : Bytes} {start : StatusStart}
    (h : parseStatusLine line = .ok start) : start.status.isSome = true := by
  unfold parseStatusLine at h
  split at h
  · split at h
    · cases h
    · obtain ⟨digit, -, h⟩ := Outcome.bind_eq_ok.mp h
      obtain ⟨status, -, h⟩ := Outcome.bind_eq_ok.mp h
      split at h <;> cases h
      rfl
  · cases h

theorem startLineByte_status {ended : Bool}
    (h : startLineByte ResponseParser.grammar p b = .ok (q, ended)) :
    q.bodyKind = p.bodyKind ∧ (ended = true → q.start.status.isSome = true) := by
  obtain ⟨r, hr, hline⟩ := headByte_eq_ok h
  have hkind : r.bodyKind = p.bodyKind := by
    rw [pushHeadByte_eq] at hr
    split at hr <;> cases hr
    rfl
  cases ended with
  | false =>
    rw [(onLine_eq_false hline).1]
    exact ⟨hkind, nofun⟩
  | true =>
    obtain ⟨content, -, hfinish⟩ := onLine_eq_true hline
    obtain ⟨start, hstart, rfl⟩ := Outcome.map_eq_ok.mp hfinish
    exact ⟨hkind, fun _ => parseStatusLine_status hstart⟩

theorem headerLineByte_kind {ended : Bool}
    (h : headerLineByte ResponseParser.grammar p b = .ok (q, ended)) :
    q.bodyKind = p.bodyKind ∧ q.state = p.state ∨
      ∃ r, ResponseParser.determineBodyKind r = .ok q := by
  obtain ⟨r, hr, hline⟩ := headByte_eq_ok h
  have hsame : r.bodyKind = p.bodyKind ∧ r.state = p.state := by
    rw [pushHeadByte_eq] at hr
    split at hr <;> cases hr
    exact ⟨rfl, rfl⟩
  cases ended with
  | false =>
    rw [(onLine_eq_false hline).1]
    exact .inl hsame
  | true =>
    obtain ⟨content, -, hfinish⟩ := onLine_eq_true hline
    rw [Outcome.ofExcept_ok_iff] at hfinish
    split at hfinish
    · exact .inr ⟨_, hfinish⟩
    · grind [parseHeader]

theorem byte_framing {ended : Bool} (hp : ResponseOpen p)
    (hframing : FramingRead p) (h : byte ResponseParser.grammar p b = .ok (q, ended)) :
    FramingRead q := by
  have hchanges := byte_changes ResponseParser.tame hp h
  by_cases hpast : PastHead p
  · obtain ⟨hpastq, hstart⟩ := hchanges.start hpast.1
    obtain ⟨hheadq, hheaders⟩ := hchanges.head hpast
    obtain ⟨hkind, hbody⟩ := byte_bodyKind hp hpast h
    refine ⟨fun _ => ?_, fun hnot => absurd hheadq hnot, fun _ => ?_, fun _ hclose => ?_⟩
    · rw [hstart]
      exact hframing.status hpast.1
    · rw [hkind, framed_congr hstart hheaders]
      exact hframing.framed hpast
    · grind [cases FramingRead]
  · have hnone := hframing.before hpast
    rw [byte] at h
    cases hstate : p.state with
    | requestLine | statusLine =>
      simp only [hstate] at h
      split at h
      · obtain ⟨hkind, hstatus⟩ := startLineByte_status h
        have hnext := startLineByte_state h
        have hnot : ¬PastHead q := by
          cases ended <;> simp [PastHead, PastStart, hnext, hstate]
        refine ⟨fun hpastq => ?_, fun _ => hkind.trans hnone, fun hq => absurd hq hnot,
          fun hq => absurd hq hnot⟩
        grind [PastStart]
      · cases h
    | headerLine =>
      simp only [hstate] at h
      have hpastp : PastStart p := by simp [PastStart, hstate]
      have hstatus : q.start.status.isSome = true := by
        rw [(hchanges.start hpastp).2]
        exact hframing.status hpastp
      rcases headerLineByte_kind h with ⟨hkind, hsame⟩ | ⟨r, hr⟩
      · have hnot : ¬PastHead q := by simp [PastHead, hsame, hstate]
        exact ⟨fun _ => hstatus, fun _ => hkind.trans hnone, fun hq => absurd hq hnot,
          fun hq => absurd hq hnot⟩
      · obtain ⟨hpastq, hframed, hopened⟩ := determineBodyKind_framing hr
        exact ⟨fun _ => hstatus, fun hnot => absurd hpastq hnot, fun _ => hframed,
          fun _ => hopened⟩
    | _ => simp [PastHead, PastStart, hstate] at hpast

theorem new_framing : FramingRead ResponseParser.new where
  status h := absurd rfl h.2
  before _ := rfl
  framed h := absurd rfl h.1.2
  opened h := absurd rfl h.1.2

theorem answerMachine_framing {head : Bool} (hp : ResponseOpen p)
    (hframing : FramingRead p) {data : Bytes} {n : Nat}
    (hrun : (answerMachine head).run p data = .ok (n, q)) : FramingRead q := by
  refine (answerMachine_keeps ?_ hp hframing hrun).2
  intro r b t e hr _ hfr hbyte
  exact byte_framing hr hfr hbyte

/-! ## What the loop returns -/

theorem finished_head (head : Bool) (p : ResponseParser) :
    (finished head p).start = p.start ∧ (finished head p).headers = p.headers := by
  grind [finished, ResponseParser.completeWithoutBody]

/-- The bytes recorded for an answer, run through a new parser, give the head of the answer. They
end the response unless the end of the stream did. -/
structure Explains (head : Bool) (answer : Answered) (n : Nat) (q : ResponseParser) : Prop where
  run : (answerMachine head).run ResponseParser.new answer.fed = .ok (n, q)
  start : answer.parser.start = q.start
  headers : answer.parser.headers = q.headers
  framed : answer.atEof = false → ended head q = true
  closed : answer.atEof = true → ended head q = false ∧ q.bodyKind = .untilClose

variable {head : Bool} {answer : Answered} {p : ResponseParser} {fed : Bytes}

/-- The response ends without the end of the stream exactly if the request or the head says where
it ends. -/
theorem Explains.atEof_iff {n : Nat} {q : ResponseParser}
    (h : Explains head answer n q) : answer.atEof = false ↔ head = true ∨ Framed q := by
  have hread := answerMachine_framing ResponseParser.new_ready new_framing h.run
  constructor
  · intro hframed
    have hended := h.framed hframed
    rw [ended, Bool.or_eq_true, Bool.and_eq_true] at hended
    rcases hended with hcomplete | ⟨hhead, -⟩
    · refine .inr (by_contra fun hnot => ?_)
      have hstate : q.state = .complete := beq_iff_eq.mp hcomplete
      grind [cases FramingRead, PastHead, PastStart]
    · exact .inl hhead
  · intro hframed
    by_contra heof
    rw [Bool.not_eq_false] at heof
    obtain ⟨hopen, hclose⟩ := h.closed heof
    have hpast : PastHead q := by
      by_contra hnot
      rw [hread.before hnot] at hclose
      cases hclose
    rcases hframed with hhead | hframed
    · have hcomplete := (isHeadComplete_iff q).mpr ⟨hread.status hpast.1, hpast⟩
      rw [ended, hhead, hcomplete, Bool.and_true, Bool.or_true] at hopen
      cases hopen
    · exact (hread.framed hpast).mp hclose hframed

structure Reading (head : Bool) (p : ResponseParser) (fed : Bytes) : Prop where
  run : (answerMachine head).run ResponseParser.new fed = .ok (fed.length, p)
  opened : ended head p = false

theorem reading_new (head : Bool) : Reading head ResponseParser.new [] :=
  ⟨rfl, by cases head <;> rfl⟩

theorem Reading.ready (h : Reading head p fed) : ResponseOpen p :=
  answerMachine_ready ResponseParser.new_ready h.run

theorem Reading.run_append (h : Reading head p fed) (data : Bytes) :
    (answerMachine head).run ResponseParser.new (fed ++ data) =
      shift fed.length ((answerMachine head).run p data) := by
  rw [Machine.run_append, h.run, followed_ok]

theorem Reading.feed {next : ResponseParser} {data : Bytes} {consumed : Nat}
    {complete : Bool} (h : Reading head p fed)
    (hfeed : feedResponse head p data = some (.ok ((consumed, complete), next))) :
    match complete with
    | true => ∃ n q, Explains head ⟨next, fed ++ data, false⟩ n q
    | false => Reading head next (fed ++ data) := by
  rw [feedResponse_eq head h.ready, Option.some.injEq] at hfeed
  cases hrun : (answerMachine head).run p data with
  | error e | panic => simp [hrun] at hfeed
  | ok r =>
    obtain ⟨n, q⟩ := r
    have happend := h.run_append data
    rw [hrun, shift_ok] at happend
    have hq := answerMachine_ready h.ready hrun
    simp only [hrun] at hfeed
    by_cases hended : ended head q = true
    · rw [if_pos hended] at hfeed
      obtain ⟨⟨k, t⟩, hrest, hr⟩ := Outcome.map_eq_ok.mp hfeed
      cases hr
      -- the head of what the parser has gone on to is the head of the response
      have hsame : t.start = q.start ∧ t.headers = q.headers := by
        rw [ended, Bool.or_eq_true, Bool.and_eq_true] at hended
        rcases hended with hcomplete | ⟨-, hhead⟩
        · rw [Machine.run_of_done _ hcomplete] at hrest
          cases hrest
          exact ⟨rfl, rfl⟩
        · exact (run_isHeadComplete hq hhead hrest).2
      obtain ⟨hstart, hheaders⟩ := finished_head head t
      exact ⟨_, q, happend, hstart.trans hsame.1, hheaders.trans hsame.2, fun _ => hended, by rintro ⟨⟩⟩
    · rw [if_neg hended] at hfeed
      cases hfeed
      rw [Bool.not_eq_true] at hended
      refine ⟨?_, hended⟩
      rw [happend, List.length_append, (Machine.run_length _ hrun).2 hended]

theorem responseAtEof_explains (h : Reading head p fed) (heof : responseAtEof p fed = .ok answer) :
    ∃ n q, Explains head answer n q := by
  unfold responseAtEof at heof
  split at heof
  · next hcomplete =>
    cases heof
    have hclose : p.bodyKind = .untilClose := by
      by_contra hkind
      rw [ResponseParser.signalEof, if_neg hkind] at hcomplete
      have hopen := h.opened
      rw [ended, hcomplete, Bool.true_or] at hopen
      cases hopen
    have hsignal : p.signalEof = { p with state := .complete } := if_pos hclose
    refine ⟨_, p, h.run, ?_, ?_, by rintro ⟨⟩, fun _ => ⟨h.opened, hclose⟩⟩
    · rw [hsignal]
    · rw [hsignal]
  · cases heof

theorem readResponse_explains {reads rest : Reads}
    (h : Reading head p fed) (hread : readResponse head reads p fed = (some (.ok answer), rest)) :
    ∃ n q, Explains head answer n q := by
  induction reads generalizing p fed with
  | nil =>
    grind [readResponse, responseAtEof_explains]
  | cons read reads ih =>
    cases read with
    | error e => simp [readResponse] at hread
    | ok data =>
      rw [readResponse] at hread
      split at hread
      · grind [responseAtEof_explains]
      · split at hread
        · simp at hread
        · simp at hread
        · simp at hread
        · next hfeed => exact ih (h.feed hfeed) hread
        · next consumed next hfeed =>
          split at hread
          · simp at hread
          · split at hread
            · split at hread
              · split at hread
                · simp at hread
                · simp at hread
                · simp at hread
                · next hlast =>
                  rw [Prod.mk.injEq, Option.some.injEq, Outcome.ok.injEq] at hread
                  rw [← hread.1]
                  exact (reading_new head).feed hlast
                · next hnext => exact ih ((reading_new head).feed hnext) hread
              · exact ih (reading_new head) hread
            · rw [Prod.mk.injEq, Option.some.injEq, Outcome.ok.injEq] at hread
              rw [← hread.1]
              exact h.feed hfeed

/-! ## Reuse -/

def connectionValues (headers : List (Bytes × Bytes)) : List Bytes :=
  (headers.filter fun h => eqIgnoreAsciiCase h.1 (ascii "connection")).map Prod.snd

def AnnouncesClose (headers : List (Bytes × Bytes)) : Prop :=
  ∃ value ∈ connectionValues headers, ∃ option ∈ splitOn 0x2c value,
    eqIgnoreAsciiCase (trim option) (ascii "close") = true

/-- The version and the first `Connection` header keep the connection alive, and its request
limit is not reached. -/
def Persists (conn : H1Connection) (p : ResponseParser) : Prop :=
  (if p.start.version = some 1 then
      ∀ value, firstHeader p.headers (ascii "connection") = some value →
        eqIgnoreAsciiCase value (ascii "close") = false
    else ∃ value, firstHeader p.headers (ascii "connection") = some value ∧
        eqIgnoreAsciiCase value (ascii "keep-alive") = true) ∧
    ∀ max, p.keepAliveMax.or conn.maxRequests = some max → conn.requestCount + 1 < max

theorem keepAlive_iff (p : ResponseParser) :
    ResponseParser.keepAlive p = true ↔
      if p.start.version = some 1 then
        ∀ value, firstHeader p.headers (ascii "connection") = some value →
          eqIgnoreAsciiCase value (ascii "close") = false
      else ∃ value, firstHeader p.headers (ascii "connection") = some value ∧
          eqIgnoreAsciiCase value (ascii "keep-alive") = true := by
  unfold ResponseParser.keepAlive keepAliveFor
  generalize p.start.version = version
  cases firstHeader p.headers (ascii "connection") <;> rcases version with _ | _ | _ | _ <;> simp

theorem isReusable_answered (conn : H1Connection) (p : ResponseParser) (stream : Reads) :
    (conn.answered p stream).isReusable = true ↔ Persists conn p := by
  rw [H1Connection.isReusable, Bool.and_eq_true, Persists]
  refine and_congr (keepAlive_iff p) ?_
  change (!(p.keepAliveMax.or conn.maxRequests).any fun max => max ≤ conn.requestCount + 1) = true ↔ _
  cases p.keepAliveMax.or conn.maxRequests <;> simp

/-- The response was delimited by its own framing, `close` was not announced, and nothing behind
the response was read. -/
structure AtBoundary (head : Bool) (answer : Answered) : Prop where
  framed : answer.atEof = false
  noClose : ¬AnnouncesClose answer.parser.headers
  exact : ∃ q, (answerMachine head).run ResponseParser.new answer.fed = .ok (answer.fed.length, q)

def noCoding (_ _ : Bytes) : Except HttpError Bytes := .error .invalidChunkEncoding

/-- A `GET` on a new connection, on which this text is read before the server closes it. -/
def getResponse (text : String) : Option (Outcome HttpError Response) × H1Connection :=
  send noCoding (.new [.ok (ascii text)]) (ascii "GET")

instance (headers : List (Bytes × Bytes)) : Decidable (AnnouncesClose headers) :=
  inferInstanceAs (Decidable (∃ value ∈ connectionValues headers, ∃ option ∈ splitOn 0x2c value,
    eqIgnoreAsciiCase (trim option) (ascii "close") = true))

def answerTo (text : String) : Option Answered :=
  match (readResponse false [.ok (ascii text)] ResponseParser.new []).1 with
  | some (.ok answer) => some answer
  | _ => none

def ReusedOff (text : String) : Prop :=
  (getResponse text).2.isReusable = true ∧
    ∃ answer, answerTo text = some answer ∧ ¬AtBoundary false answer

end Starfish.Http.H1
