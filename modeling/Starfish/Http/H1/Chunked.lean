import Starfish.Http.H1.Feed

/-!
# Chunked transfer-encoding

The incremental decoder of RFC 9112, section 7.1, again as a run of a machine on bytes. With
it, all three parsers of the HTTP/1.1 code are known not to depend on how bytes arrive.
-/

namespace Starfish.Http.H1

open Quic (Bytes)
open Incremental

inductive ChunkState
  | size
  | data (remaining : Nat)
  | dataCrlf
  | finalCrlf
  | complete
deriving DecidableEq, Repr

structure ChunkedDecoder where
  state : ChunkState
  buf : Bytes
  output : Bytes
deriving DecidableEq, Repr

namespace ChunkedDecoder

def new : ChunkedDecoder := ⟨.size, [], []⟩

def isComplete (d : ChunkedDecoder) : Bool := d.state == .complete

def lineByte (finish : ChunkedDecoder → Bytes → Outcome HttpError ChunkedDecoder)
    (d : ChunkedDecoder) (b : UInt8) : Outcome HttpError (ChunkedDecoder × Bool) :=
  let d := { d with buf := d.buf ++ [b] }
  match stripLineEnding d.buf with
  | some content => (finish d content).map fun d => (d, true)
  | none => .ok (d, false)

/-- The turn of `read_size` for one byte. -/
def sizeByte : ChunkedDecoder → UInt8 → Outcome HttpError (ChunkedDecoder × Bool) :=
  lineByte fun d content =>
    (Outcome.ofExcept (MessageParser.chunkSizeOf content)).map fun size =>
      { d with buf := [], state := if size = 0 then .finalCrlf else .data size }

/-- The turn of `read_crlf` for one byte. -/
def crlfByte (next : ChunkState) :
    ChunkedDecoder → UInt8 → Outcome HttpError (ChunkedDecoder × Bool) :=
  lineByte fun d _ => .ok { d with buf := [], state := next }

def readData (d : ChunkedDecoder) (data : Bytes) : Outcome HttpError (Nat × ChunkedDecoder) :=
  match d.state with
  | .data remaining => do
      let take := min data.length remaining
      let taken ← Outcome.range data 0 take
      let left ← Outcome.sub remaining take
      .ok (take, { d with
        output := d.output ++ taken
        state := if left = 0 then .dataCrlf else .data left })
  | _ => .ok (0, d)

def decodeBlock (d : ChunkedDecoder) (data : Bytes) : Outcome HttpError (Nat × ChunkedDecoder) :=
  match d.state with
  | .size => scan sizeByte d data
  | .data _ => d.readData data
  | .dataCrlf => scan (crlfByte .size) d data
  | .finalCrlf => scan (crlfByte .complete) d data
  | .complete => .ok (0, d)

def decode (d : ChunkedDecoder) (data : Bytes) :
    Option (Outcome HttpError ((Nat × Bool) × ChunkedDecoder)) :=
  loop decodeBlock isComplete data (data.length + 1) d 0

/-! ## One byte -/

def dataStep (d : ChunkedDecoder) (remaining : Nat) (b : UInt8) : ChunkedDecoder :=
  { d with
    output := d.output ++ [b]
    state := if remaining - 1 = 0 then .dataCrlf else .data (remaining - 1) }

def byte (d : ChunkedDecoder) (b : UInt8) : Outcome HttpError (ChunkedDecoder × Bool) :=
  match d.state with
  | .size => sizeByte d b
  | .data remaining => .ok (d.dataStep remaining b, decide (remaining = 1))
  | .dataCrlf => crlfByte .size d b
  | .finalCrlf => crlfByte .complete d b
  | .complete => .ok (d, true)

def machine : Machine ChunkedDecoder UInt8 HttpError where
  step d b := (byte d b).map Prod.fst
  done := isComplete

def Ready (d : ChunkedDecoder) : Prop := ∀ remaining, d.state = .data remaining → 0 < remaining

variable {d e : ChunkedDecoder} {b : UInt8}

variable {finish : ChunkedDecoder → Bytes → Outcome HttpError ChunkedDecoder} {remaining : Nat}

theorem lineByte_eq_false (h : lineByte finish d b = .ok (e, false)) : e.state = d.state := by
  rw [lineByte] at h
  split at h
  · obtain ⟨r, -, hr⟩ := Outcome.map_eq_ok.mp h
    cases hr
  · cases h
    rfl

theorem lineByte_eq_true (h : lineByte finish d b = .ok (e, true)) :
    ∃ r content, finish r content = .ok e := by
  rw [lineByte] at h
  split at h
  · next content _ =>
      obtain ⟨r, hf, hr⟩ := Outcome.map_eq_ok.mp h
      cases hr
      exact ⟨_, content, hf⟩
  · cases h

theorem readData_eq (hstate : d.state = .data remaining) (data : Bytes) :
    d.readData data = .ok (min data.length remaining, { d with
      output := d.output ++ data.take (min data.length remaining)
      state := if remaining - min data.length remaining = 0 then .dataCrlf
        else .data (remaining - min data.length remaining) }) := by
  rw [readData, hstate]
  simp [Outcome.range_of_le, Outcome.sub_of_le]

theorem readData_cons (hstate : d.state = .data remaining) (hrem : 0 < remaining)
    (b : UInt8) (rest : Bytes) : d.readData (b :: rest) =
      if remaining = 1 then .ok (1, d.dataStep remaining b)
      else shift 1 ((d.dataStep remaining b).readData rest) := by
  have hmin : min (rest.length + 1) remaining = min rest.length (remaining - 1) + 1 := by omega
  rw [readData_eq hstate, List.length_cons, hmin, List.take_succ_cons]
  by_cases hlast : remaining = 1
  · simp [dataStep, hlast]
  · have hne : remaining - 1 ≠ 0 := by omega
    rw [if_neg hlast, readData_eq (d := d.dataStep remaining b) (if_neg hne)]
    grind [dataStep, shift_ok]

theorem byte_ready {ended : Bool} (hd : Ready d) (hopen : d.state ≠ .complete)
    (h : byte d b = .ok (e, ended)) :
    Ready e ∧ (ended = false → e.state ≠ .complete) := by
  rw [byte] at h
  cases hstate : d.state with
  | size =>
    simp only [hstate] at h
    cases ended with
    | false =>
      have he := lineByte_eq_false h
      exact ⟨fun n hn => by simp [he, hstate] at hn, fun _ => by simp [he, hstate]⟩
    | true =>
      obtain ⟨r, content, hfinish⟩ := lineByte_eq_true h
      obtain ⟨size, -, rfl⟩ := Outcome.map_eq_ok.mp hfinish
      refine ⟨fun n hn => ?_, by simp⟩
      grind
  | data remaining =>
    simp only [hstate] at h
    cases h
    by_cases hlast : remaining - 1 = 0
    · have hnext : (d.dataStep remaining b).state = .dataCrlf := if_pos hlast
      exact ⟨fun n hn => by simp [hnext] at hn, fun _ => by simp [hnext]⟩
    · have hnext : (d.dataStep remaining b).state = .data (remaining - 1) := if_neg hlast
      refine ⟨fun n hn => ?_, fun _ => by simp [hnext]⟩
      grind
  | dataCrlf | finalCrlf =>
    simp only [hstate] at h
    cases ended with
    | false =>
      have he := lineByte_eq_false h
      exact ⟨fun n hn => by simp [he, hstate] at hn, fun _ => by simp [he, hstate]⟩
    | true =>
      obtain ⟨r, content, hfinish⟩ := lineByte_eq_true h
      cases hfinish
      exact ⟨fun n hn => (by cases hn), by simp⟩
  | complete => exact absurd hstate hopen

theorem decodeBlock_eq_scan (hd : Ready d) (hopen : d.state ≠ .complete) (data : Bytes) :
    decodeBlock d data = scan byte d data := by
  -- the states that read a line stay as they are until the line ends
  have hline : ∀ (state : ChunkState)
      (finish : ChunkedDecoder → Bytes → Outcome HttpError ChunkedDecoder),
      (∀ (e : ChunkedDecoder) b, e.state = state → byte e b = lineByte finish e b) →
      d.state = state → scan (lineByte finish) d data = scan byte d data := by
    intro state finish hbyte hstate
    refine scan_congr (K := fun e : ChunkedDecoder => e.state = state)
      (fun e b he => (hbyte e b he).symm) (fun e b r he hr => ?_) hstate data
    grind [lineByte_eq_false]
  cases hstate : d.state with
  | size =>
    rw [decodeBlock, hstate]
    exact hline .size _ (fun e b he => by simp only [byte, he, sizeByte]) hstate
  | dataCrlf =>
    rw [decodeBlock, hstate]
    exact hline .dataCrlf _ (fun e b he => by simp only [byte, he, crlfByte]) hstate
  | finalCrlf =>
    rw [decodeBlock, hstate]
    exact hline .finalCrlf _ (fun e b he => by simp only [byte, he, crlfByte]) hstate
  | data remaining =>
    rw [decodeBlock, hstate]
    change d.readData data = _
    refine eq_scan (K := fun e : ChunkedDecoder => ∃ n, 0 < n ∧ e.state = .data n)
      ?_ ?_ ?_ ⟨remaining, hd remaining hstate, hstate⟩ data
    · rintro e ⟨n, hn, he⟩
      simp [readData_eq he, Nat.ne_of_gt hn, ← he]
    · rintro e b rest ⟨n, hn, he⟩
      rw [readData_cons he hn, byte, he]
      simp only [Outcome.bind, decide_eq_true_eq]
    · rintro e b r ⟨n, hn, he⟩ hr
      simp only [byte, he, Outcome.ok.injEq, Prod.mk.injEq, decide_eq_false_iff_not] at hr
      refine ⟨n - 1, by omega, ?_⟩
      rw [← hr.1, dataStep]
      exact if_neg (by omega)
  | complete => exact absurd hstate hopen

theorem step_ready (d : ChunkedDecoder) (b : UInt8) (e : ChunkedDecoder) (hd : Ready d)
    (hopen : machine.done d = false) (h : machine.step d b = .ok e) : Ready e := by
  obtain ⟨r, hr, rfl⟩ := Outcome.map_eq_ok.mp h
  exact (byte_ready hd (by simpa [machine, isComplete] using hopen) hr).1

theorem decodeBlock_advances (d : ChunkedDecoder) (data : Bytes) (hd : Ready d)
    (hopen : machine.done d = false) (hne : data ≠ []) :
    Advances machine Ready d data (decodeBlock d data) := by
  have hstate : d.state ≠ .complete := by simpa [machine, isComplete] using hopen
  rw [decodeBlock_eq_scan hd hstate]
  refine scan_advances (K := fun e => Ready e ∧ e.state ≠ .complete)
    (fun e he => by simpa [machine, isComplete] using he.2) (fun e b _ => rfl)
    (fun e b r he hr => ?_) (fun e b r he hr => (byte_ready he.1 he.2 hr).1)
    (fun e he => he.1) ⟨hd, hstate⟩ hne
  grind [byte_ready]

/-- `decode` ends, and is a run of the byte machine. -/
theorem decode_eq (hd : Ready d) (data : Bytes) :
    decode d data = some (machine.feed d data) :=
  loop_eq_feed (m := machine) decodeBlock_advances hd data

theorem decodePieces_eq (hd : Ready d) (pieces : List Bytes) :
    feedPieces decode isComplete d pieces = some (machine.feed d pieces.flatten) :=
  feedPieces_eq_feed (m := machine) step_ready (fun _ data he => decode_eq he data) hd pieces

theorem new_ready : Ready new := fun _ h => nomatch h

end ChunkedDecoder

/-! ## Arrival -/

/-- The answer of each parser does not depend on how its bytes arrive: fed piece after piece, up
to an error or the end of the message, it consumes as many bytes, is as complete, holds the same
message and fails in the same cases as when it is fed everything at once. -/
theorem parsing_independent_of_arrival (pieces : List Bytes) :
    (∃ answer,
      feedPieces RequestParser.feed MessageParser.isComplete RequestParser.new pieces =
        some answer ∧ RequestParser.feed RequestParser.new pieces.flatten = some answer) ∧
    (∃ answer,
      feedPieces ResponseParser.feed MessageParser.isComplete ResponseParser.new pieces =
        some answer ∧ ResponseParser.feed ResponseParser.new pieces.flatten = some answer) ∧
    (∃ answer,
      feedPieces ChunkedDecoder.decode ChunkedDecoder.isComplete ChunkedDecoder.new pieces =
        some answer ∧ ChunkedDecoder.decode ChunkedDecoder.new pieces.flatten = some answer) := by
  have hrequest := MessageParser.feed_eq RequestParser.lawful RequestParser.new_ready
    pieces.flatten
  have hresponse := MessageParser.feed_eq ResponseParser.lawful ResponseParser.new_ready
    pieces.flatten
  refine ⟨⟨_, ?_, hrequest⟩, ⟨_, ?_, hresponse⟩, ⟨_, ?_, ChunkedDecoder.decode_eq
    ChunkedDecoder.new_ready _⟩⟩
  · exact MessageParser.feedPieces_eq RequestParser.lawful RequestParser.new_ready pieces
  · exact MessageParser.feedPieces_eq ResponseParser.lawful ResponseParser.new_ready pieces
  · exact ChunkedDecoder.decodePieces_eq ChunkedDecoder.new_ready pieces

end Starfish.Http.H1
