import Starfish.Http.H1.Chunked
import Starfish.Http.H1.Lines

/-!
# Chunked bodies

The parsers of requests and responses read a chunked body with states of their own. Seen
through `chunkView` they are the decoder, with a limit on the chunk-size lines, so what holds
of the decoder's runs holds of theirs: bodies are read back, and the body ends with the first
line after the last chunk, whether it is empty or a trailer field.
-/

namespace Starfish.Http.H1

open Quic (Bytes)
open Incremental

def crlf : Bytes := [0x0d, 0x0a]

def encodeLastChunk : Bytes := ascii "0\r\n\r\n"

def encodeChunk (data : Bytes) : Bytes :=
  if data.isEmpty then encodeLastChunk
  else hexadecimal data.length ++ crlf ++ data ++ crlf

namespace ChunkedDecoder

def limited : Machine ChunkedDecoder UInt8 HttpError where
  step d b :=
    if d.state = .size ∧ maxChunkSizeLine < d.buf.length + 1 then .error .invalidChunkEncoding
    else machine.step d b
  done := isComplete

/-- The chunk-size lines that the decoder meets in the data, line endings included, are within
the limit. -/
def ShortLines : ChunkedDecoder → Bytes → Prop
  | _, [] => True
  | d, b :: rest => (d.state = .size → d.buf.length + 1 ≤ maxChunkSizeLine) ∧
      ∀ e, machine.step d b = .ok e → ShortLines e rest

variable {data line output : Bytes}

theorem limited_run {d : ChunkedDecoder} (h : ShortLines d data) :
    limited.run d data = machine.run d data := by
  induction data generalizing d with
  | nil => rfl
  | cons b rest ih =>
    obtain ⟨hshort, hrest⟩ := h
    have hstep : limited.step d b = machine.step d b := if_neg fun hlong => by
      have := hshort hlong.1
      omega
    by_cases hdone : machine.done d = true
    · rw [machine.run_of_done hdone, limited.run_of_done hdone]
    · rw [Bool.not_eq_true] at hdone
      rw [machine.run_cons hdone, limited.run_cons hdone, hstep]
      cases hd : machine.step d b with
      | ok e => simp only [Outcome.bind, ih (hrest e hd)]
      | error e => rfl
      | panic => rfl

/-! ## Runs over whole lines and chunks -/

structure Agrees (m : Machine ChunkedDecoder UInt8 HttpError) : Prop where
  step : ∀ d b, (d.state = .size → d.buf.length + 1 ≤ maxChunkSizeLine) →
    m.step d b = machine.step d b
  done : m.done = isComplete

theorem agrees_machine : Agrees machine := ⟨fun _ _ _ => rfl, rfl⟩

theorem agrees_limited : Agrees limited where
  step d b h := if_neg fun hlong => by
    have := h hlong.1
    omega
  done := rfl

theorem chunkSizeOf_hexadecimal {n : Nat} (h : n ≤ usizeMax) :
    MessageParser.chunkSizeOf (hexadecimal n) = .ok n := by
  have hascii : ∀ b ∈ hexadecimal n, b < 0x80 := fun b hb => (hexadecimal_facts hb).2.2.1
  have htrimmed := trimmed_of_ascii hascii fun b hb => (hexadecimal_facts hb).2.2.2
  rw [MessageParser.chunkSizeOf, if_pos (validUtf8_of_ascii hascii),
    splitOn_of_notMem fun hb => (hexadecimal_facts hb).1 rfl, List.headD_cons,
    trim_of_trimmed htrimmed, parseHex_hexadecimal h]

variable {m : Machine ChunkedDecoder UInt8 HttpError} (hm : Agrees m)
  {d : ChunkedDecoder} {finish : ChunkedDecoder → Bytes → Outcome HttpError ChunkedDecoder}

include hm

theorem Agrees.run_line (hopen : d.state ≠ .complete) (hline : 0x0a ∉ line)
    (hbyte : ∀ (e : ChunkedDecoder) b, e.state = d.state → byte e b = lineByte finish e b)
    (hshort : d.state = .size → d.buf.length + line.length + 1 ≤ maxChunkSizeLine) (rest : Bytes) :
    m.run d (line ++ 0x0a :: rest) =
      (finish { d with buf := d.buf ++ line ++ [0x0a] } (stripCr (d.buf ++ line))).bind fun e =>
        shift (line.length + 1) (m.run e rest) := by
  have hdone : m.done d = false := by
    rw [hm.done]
    simpa [isComplete] using hopen
  induction line generalizing d with
  | nil =>
    rw [List.nil_append, m.run_cons hdone, hm.step d _ (by simpa using hshort)]
    simp only [machine, hbyte d _ rfl, lineByte, stripLineEnding_concat, if_true, List.append_nil]
    cases finish { d with buf := d.buf ++ [0x0a] } (stripCr d.buf) <;> rfl
  | cons b line ih =>
    have hb : b ≠ 0x0a := fun h => hline (h ▸ List.mem_cons_self)
    have hlen : (b :: line).length = line.length + 1 := rfl
    rw [List.cons_append, m.run_cons hdone, hm.step d _ (fun h => by have := hshort h; omega)]
    simp only [machine, hbyte d _ rfl, lineByte, stripLineEnding_concat, if_neg hb, Outcome.map,
      bind_ok]
    rw [ih (d := { d with buf := d.buf ++ [b] }) hopen
      (fun h => hline (List.mem_cons_of_mem b h)) hbyte
      (fun h => by have := hshort h; rw [List.length_append, List.length_singleton]; omega)
      (by rw [hm.done] at hdone ⊢; exact hdone)]
    simp only [shift_bind, shift_shift, List.append_assoc, List.singleton_append, hlen,
      Nat.add_comm]

theorem Agrees.run_data (hne : data ≠ []) (rest : Bytes) :
    m.run ⟨.data data.length, [], output⟩ (data ++ rest) =
      shift data.length (m.run ⟨.dataCrlf, [], output ++ data⟩ rest) := by
  induction data generalizing output with
  | nil => exact absurd rfl hne
  | cons b data ih =>
    rw [List.cons_append, m.run_cons (by rw [hm.done]; rfl), hm.step _ _ (by simp)]
    simp only [machine, byte, dataStep, Outcome.map, Outcome.bind, List.length_cons,
      Nat.add_sub_cancel]
    cases data with
    | nil => simp
    | cons c data =>
      rw [if_neg (by simp), ih (by simp)]
      simp [Nat.add_comm]

theorem Agrees.run_size (output : Bytes) {n : Nat} (hn : n ≤ usizeMax) (rest : Bytes) :
    m.run ⟨.size, [], output⟩ (hexadecimal n ++ crlf ++ rest) =
      shift ((hexadecimal n).length + 2)
        (m.run ⟨if n = 0 then .finalCrlf else .data n, [], output⟩ rest) := by
  have hlen := length_hexadecimal_le hn
  have hline : 0x0a ∉ hexadecimal n ++ [0x0d] := by
    simpa using fun hb => (hexadecimal_facts hb).2.1 rfl
  have hrun := hm.run_line (d := ⟨.size, [], output⟩) (by simp) hline
    (fun e b he => by simp only [byte, he]; rfl)
    (fun _ => by simp [maxChunkSizeLine]; omega) rest
  simp only [List.nil_append, stripCr_concat, chunkSizeOf_hexadecimal hn, Outcome.ofExcept,
    Outcome.map, bind_ok] at hrun
  simpa [crlf] using hrun

theorem Agrees.run_crlf {state next : ChunkState} (output : Bytes) (hline : 0x0a ∉ line)
    (hstate : state = .dataCrlf ∧ next = .size ∨ state = .finalCrlf ∧ next = .complete)
    (rest : Bytes) : m.run ⟨state, [], output⟩ (line ++ crlf ++ rest) =
      shift (line.length + 2) (m.run ⟨next, [], output⟩ rest) := by
  have hline' : 0x0a ∉ line ++ [0x0d] := by simpa using hline
  have hopen : state ≠ .complete ∧ state ≠ .size := by
    rcases hstate with ⟨rfl, -⟩ | ⟨rfl, -⟩ <;> simp
  have hbyte : ∀ (e : ChunkedDecoder) b, e.state = state → byte e b =
      lineByte (fun d _ => .ok { d with buf := [], state := next }) e b := by
    rcases hstate with ⟨rfl, rfl⟩ | ⟨rfl, rfl⟩ <;> intro e b he <;> simp only [byte, he, crlfByte]
  have hrun := hm.run_line (d := ⟨state, [], output⟩) hopen.1 hline' hbyte
    (fun h => absurd h hopen.2) rest
  rw [bind_ok] at hrun
  simpa [crlf] using hrun

theorem Agrees.run_chunks {chunks : List Bytes}
    (hchunks : ∀ c ∈ chunks, c ≠ [] ∧ c.length ≤ usizeMax) (rest : Bytes) :
    m.run ⟨.size, [], output⟩ (chunks.flatMap encodeChunk ++ rest) =
      shift (chunks.flatMap encodeChunk).length
        (m.run ⟨.size, [], output ++ chunks.flatten⟩ rest) := by
  induction chunks generalizing output with
  | nil => simp
  | cons c chunks ih =>
    obtain ⟨hne, hfit⟩ := hchunks c List.mem_cons_self
    have hlen : c.length ≠ 0 := by simpa using hne
    have hcrlf := fun rest =>
      hm.run_crlf (output ++ c) List.not_mem_nil (.inl ⟨rfl, rfl⟩) rest
    rw [List.flatMap_cons, List.flatten_cons, encodeChunk, if_neg (by simpa using hne)]
    simp only [List.append_assoc]
    rw [← List.append_assoc, hm.run_size _ hfit, if_neg hlen, hm.run_data hne]
    rw [← List.nil_append (crlf ++ _), ← List.append_assoc, hcrlf,
      ih fun c' hc' => hchunks c' (List.mem_cons_of_mem c hc')]
    simp only [shift_shift, List.length_append, List.append_assoc, crlf, List.length_cons,
      List.length_nil]
    congr 1
    omega

theorem Agrees.run_last (hline : 0x0a ∉ line) (rest : Bytes) :
    m.run ⟨.size, [], output⟩ (ascii "0\r\n" ++ (line ++ crlf) ++ rest) =
      .ok (line.length + 5, ⟨.complete, [], output⟩) := by
  have hsize := hm.run_size output (Nat.zero_le usizeMax) (line ++ crlf ++ rest)
  have hrun := hm.run_crlf output hline (.inr ⟨rfl, rfl⟩) rest
  have hdone : m.done ⟨.complete, [], output⟩ = true := by
    rw [hm.done]
    rfl
  rw [if_pos rfl, hrun, m.run_of_done hdone, shift_ok, shift_ok] at hsize
  exact hsize.trans (by simp [hexadecimal, Nat.add_comm])

end ChunkedDecoder

/-! ## The parsers -/

namespace MessageParser

variable {S : Type} {g : Grammar S} {p : MessageParser S}

def enterChunks (p : MessageParser S) : MessageParser S :=
  { p with state := .chunkSize, buf := [], body := [], sawLastChunk := false }

def chunkView (p : MessageParser S) : ChunkedDecoder where
  state := match p.state with
    | .chunkSize => .size
    | .chunkData remaining => .data remaining
    | .chunkTrailer => if p.sawLastChunk then .finalCrlf else .dataCrlf
    | _ => .complete
  buf := p.buf
  output := p.body

def InChunks (p : MessageParser S) : Prop :=
  match p.state with
  | .chunkSize => p.sawLastChunk = false
  | .chunkData remaining => p.sawLastChunk = false ∧ 0 < remaining
  | .chunkTrailer | .complete => True
  | _ => False

theorem step_chunkView (hp : InChunks p) (hopen : p.isComplete = false) (b : UInt8) :
    ((machine g).step p b).map chunkView = ChunkedDecoder.limited.step p.chunkView b ∧
      ∀ q, (machine g).step p b = .ok q → InChunks q := by
  obtain ⟨state, buf, start, headers, body, bodyKind, bodyRemaining, headerBytesRead, last⟩ := p
  simp only [InChunks, isComplete, machine, byte, ChunkedDecoder.limited, ChunkedDecoder.machine,
    ChunkedDecoder.byte, chunkView] at hp hopen ⊢
  cases state with
  | requestLine | statusLine | headerLine | body => exact hp.elim
  | complete => simp at hopen
  | chunkSize =>
    simp only [chunkSizeByte, onLine, ChunkedDecoder.sizeByte, ChunkedDecoder.lineByte]
    by_cases hlong : maxChunkSizeLine < buf.length + 1
    · simp [hlong, Outcome.map]
    · cases stripLineEnding (buf ++ [b]) with
      | none => simp [hlong, Outcome.map, hp, chunkView]
      | some content =>
        cases hsize : chunkSizeOf content with
        | error e => simp [hlong, Outcome.map, Outcome.ofExcept, hsize]
        | ok size =>
          by_cases hzero : size = 0 <;>
            simp [hlong, Outcome.map, Outcome.ofExcept, hsize, hzero, hp, chunkView,
              Nat.pos_of_ne_zero]
  | chunkData remaining =>
    have hbyte := chunkDataByte_eq (b := b) (p := ⟨.chunkData remaining, buf, start, headers, body,
      bodyKind, bodyRemaining, headerBytesRead, last⟩) rfl hp.2
    simp only [hbyte]
    by_cases hlast : remaining - 1 = 0
    · simp [Outcome.map, chunkView, chunkByte, ChunkedDecoder.dataStep, hlast, hp.1]
    · have hleft : 1 < remaining := by omega
      simp [Outcome.map, chunkView, chunkByte, ChunkedDecoder.dataStep, hlast, hp.1, hleft]
  | chunkTrailer =>
    simp only [chunkTrailerByte, onLine, ChunkedDecoder.crlfByte, ChunkedDecoder.lineByte]
    cases last <;> cases stripLineEnding (buf ++ [b]) <;> simp [Outcome.map, chunkView]

theorem chunkView_isComplete (hp : InChunks p) : p.chunkView.isComplete = p.isComplete := by
  simp only [InChunks] at hp
  simp only [ChunkedDecoder.isComplete, isComplete, chunkView]
  cases hstate : p.state with
  | chunkTrailer => cases p.sawLastChunk <;> rfl
  | _ => simp_all

theorem run_chunkView (g : Grammar S) (p : MessageParser S) (data : Bytes) :
    ((machine g).run p.enterChunks data).map (fun r => (r.1, r.2.chunkView)) =
      ChunkedDecoder.limited.run .new data :=
  run_map (I := InChunks) (s := p.enterChunks) (f := chunkView)
    (fun _ b q hp hopen hq => (step_chunkView hp hopen b).2 q hq)
    (fun _ b hp hopen => (step_chunkView hp hopen b).1) (fun _ hp => chunkView_isComplete hp) rfl
    data

end MessageParser

/-! ## Answers -/

/-- What a call has consumed, whether the body is complete, and the body. -/
abbrev Answer := Option (Outcome HttpError (Nat × Bool × Bytes))

def ChunkedDecoder.answer (data : Bytes) : Answer :=
  (decode new data).map (Outcome.map fun r => (r.1.1, r.1.2, r.2.output))

def MessageParser.answer {S : Type} (g : Grammar S) (p : MessageParser S) (data : Bytes) : Answer :=
  (feed g p.enterChunks data).map (Outcome.map fun r => (r.1.1, r.1.2, r.2.body))

def runAnswer (m : Machine ChunkedDecoder UInt8 HttpError) (data : Bytes) : Answer :=
  some ((m.run .new data).map fun r => (r.1, r.2.isComplete, r.2.output))

theorem ChunkedDecoder.answer_eq (data : Bytes) : answer data = runAnswer machine data := by
  rw [answer, decode_eq new_ready, Machine.feed, runAnswer]
  cases machine.run new data <;> rfl

theorem MessageParser.answer_eq {S : Type} {g : Grammar S} {bodyReady : MessageParser S → Prop}
    (hg : Lawful g bodyReady) (p : MessageParser S) (data : Bytes) :
    p.answer g data = runAnswer ChunkedDecoder.limited data := by
  rw [answer, feed_eq hg (ready_of_line (.inr (.inl rfl))), Machine.feed, runAnswer,
    ← run_chunkView g p]
  cases hrun : (machine g).run p.enterChunks data with
  | ok r =>
    have hr : InChunks r.2 := run_keeps (I := InChunks) (s := p.enterChunks)
      (fun _ b q hp hopen hq => (step_chunkView hp hopen b).2 q hq) rfl hrun
    simp only [Outcome.map, chunkView_isComplete hr]
    rfl
  | error e => rfl
  | panic => rfl

theorem ChunkedDecoder.Agrees.runAnswer_eq {m : Machine ChunkedDecoder UInt8 HttpError}
    (hm : Agrees m) {chunks : List Bytes} {line : Bytes}
    (hchunks : ∀ c ∈ chunks, c ≠ [] ∧ c.length ≤ usizeMax) (hline : 0x0a ∉ line) (rest : Bytes) :
    runAnswer m (chunks.flatMap encodeChunk ++ (ascii "0\r\n" ++ (line ++ crlf) ++ rest)) =
      some (.ok ((chunks.flatMap encodeChunk).length + (line.length + 5), true,
        chunks.flatten)) := by
  rw [runAnswer, new, hm.run_chunks hchunks, hm.run_last hline]
  rfl

/-- Chunked bodies are read back, up to what follows them, by the decoder and by both parsers,
and the three agree on every string in which the chunk-size lines are short. -/
theorem chunked_decoders_agree (p : RequestParser) (q : ResponseParser) :
    (∀ (chunks : List Bytes) (rest : Bytes), (∀ c ∈ chunks, c ≠ [] ∧ c.length ≤ usizeMax) →
      let wire := chunks.flatMap encodeChunk ++ encodeLastChunk
      let answer : Answer := some (.ok (wire.length, true, chunks.flatten))
      ChunkedDecoder.answer (wire ++ rest) = answer ∧
        p.answer RequestParser.grammar (wire ++ rest) = answer ∧
        q.answer ResponseParser.grammar (wire ++ rest) = answer) ∧
    ∀ data, ChunkedDecoder.ShortLines .new data →
      p.answer RequestParser.grammar data = ChunkedDecoder.answer data ∧
      q.answer ResponseParser.grammar data = ChunkedDecoder.answer data := by
  simp only [ChunkedDecoder.answer_eq, MessageParser.answer_eq RequestParser.lawful,
    MessageParser.answer_eq ResponseParser.lawful]
  constructor
  · intro chunks rest hchunks
    have hread : ∀ m, ChunkedDecoder.Agrees m →
        runAnswer m (chunks.flatMap encodeChunk ++ encodeLastChunk ++ rest) =
          some (.ok ((chunks.flatMap encodeChunk ++ encodeLastChunk).length, true,
            chunks.flatten)) := by
      intro m hm
      have hanswer := hm.runAnswer_eq hchunks List.not_mem_nil rest
      rw [List.length_append, List.append_assoc]
      exact hanswer
    exact ⟨hread _ ChunkedDecoder.agrees_machine, hread _ ChunkedDecoder.agrees_limited,
      hread _ ChunkedDecoder.agrees_limited⟩
  · intro data hshort
    rw [runAnswer, runAnswer, ChunkedDecoder.limited_run hshort]
    exact ⟨rfl, rfl⟩

theorem hello_read :
    ChunkedDecoder.answer ([ascii "hello"].flatMap encodeChunk ++ encodeLastChunk ++ ascii "GET") =
      some (.ok (15, true, ascii "hello")) :=
  ((chunked_decoders_agree RequestParser.new ResponseParser.new).1 [ascii "hello"] (ascii "GET")
    (by decide)).1

/-! ## Trailer fields -/

def encodeWithTrailers (chunks trailers : List Bytes) : Bytes :=
  chunks.flatMap encodeChunk ++ (ascii "0\r\n" ++ (trailers.flatMap (· ++ crlf) ++ crlf))

def EndsWith (answer : Answer) (wire : Bytes) : Prop :=
  ∃ body, answer = some (.ok (wire.length, true, body))

/-- The body ends with the first line after the last chunk, so it is complete at its end exactly if
there are no trailer fields. -/
theorem endsWith_iff {m : Machine ChunkedDecoder UInt8 HttpError} (hm : ChunkedDecoder.Agrees m)
    {chunks trailers : List Bytes} (hchunks : ∀ c ∈ chunks, c ≠ [] ∧ c.length ≤ usizeMax)
    (htrailers : ∀ t ∈ trailers, 0x0a ∉ t) (rest : Bytes) :
    EndsWith (runAnswer m (encodeWithTrailers chunks trailers ++ rest))
      (encodeWithTrailers chunks trailers) ↔ trailers = [] := by
  cases trailers with
  | nil =>
    have hanswer := hm.runAnswer_eq hchunks List.not_mem_nil rest
    refine ⟨fun _ => rfl, fun _ => ⟨chunks.flatten, ?_⟩⟩
    rw [encodeWithTrailers, List.append_assoc, List.length_append]
    exact hanswer
  | cons t trailers =>
    have hanswer := hm.runAnswer_eq hchunks (htrailers t List.mem_cons_self)
      (trailers.flatMap (· ++ crlf) ++ crlf ++ rest)
    have hwire : encodeWithTrailers chunks (t :: trailers) ++ rest =
        chunks.flatMap encodeChunk ++ (ascii "0\r\n" ++ (t ++ crlf) ++
          (trailers.flatMap (· ++ crlf) ++ crlf ++ rest)) := by
      simp [encodeWithTrailers]
    refine ⟨fun ⟨body, hbody⟩ => ?_, fun h => nomatch h⟩
    rw [hwire, hanswer] at hbody
    simp [encodeWithTrailers, crlf, ascii] at hbody

/-- Trailer fields belong to their message exactly if there are none. -/
theorem trailers_belong_iff (p : RequestParser) (q : ResponseParser) (chunks trailers : List Bytes)
    (hchunks : ∀ c ∈ chunks, c ≠ [] ∧ c.length ≤ usizeMax)
    (htrailers : ∀ t ∈ trailers, t ≠ [] ∧ 0x0a ∉ t) (rest : Bytes) :
    let wire := encodeWithTrailers chunks trailers
    EndsWith (ChunkedDecoder.answer (wire ++ rest)) wire ∧
      EndsWith (p.answer RequestParser.grammar (wire ++ rest)) wire ∧
      EndsWith (q.answer ResponseParser.grammar (wire ++ rest)) wire ↔ trailers = [] := by
  have hlines : ∀ t ∈ trailers, 0x0a ∉ t := fun t ht => (htrailers t ht).2
  simp only [ChunkedDecoder.answer_eq, MessageParser.answer_eq RequestParser.lawful,
    MessageParser.answer_eq ResponseParser.lawful,
    endsWith_iff ChunkedDecoder.agrees_machine hchunks hlines,
    endsWith_iff ChunkedDecoder.agrees_limited hchunks hlines, and_self]

theorem hello_complete :
    EndsWith (ChunkedDecoder.answer (encodeWithTrailers [ascii "hello"] [] ++ ascii "GET"))
      (encodeWithTrailers [ascii "hello"] []) :=
  ((trailers_belong_iff RequestParser.new ResponseParser.new [ascii "hello"] []
    (by decide) (by decide) (ascii "GET")).mpr rfl).1

/-- The empty line after the trailer field is left for the next message. -/
theorem trailer_ends_early :
    let wire := encodeWithTrailers [] [ascii "A: b"]
    wire.length = 11 ∧ ChunkedDecoder.answer wire = some (.ok (9, true, [])) ∧
      RequestParser.new.answer RequestParser.grammar wire = some (.ok (9, true, [])) ∧
      ResponseParser.new.answer ResponseParser.grammar wire = some (.ok (9, true, [])) := by
  have hread : ∀ m, ChunkedDecoder.Agrees m →
      runAnswer m (encodeWithTrailers [] [ascii "A: b"]) = some (.ok (9, true, [])) := by
    intro m hm
    have hanswer := @ChunkedDecoder.Agrees.runAnswer_eq m hm [] (ascii "A: b") nofun (by decide)
      crlf
    simpa [encodeWithTrailers, ascii] using hanswer
  exact ⟨by decide, hread _ ChunkedDecoder.agrees_machine, hread _ ChunkedDecoder.agrees_limited,
    hread _ ChunkedDecoder.agrees_limited⟩

end Starfish.Http.H1
