import Starfish.Http.H1.Parser

/-!
# Feeding a parser

The parser one byte at a time, and `feed` as a run of it. What a state does with its
data is a scan of what it does with a byte (`parseBlock_eq_scan`), so the loop of `feed` is a
run of the byte machine (`feed_eq`): it ends, and it does not depend on how the bytes arrive.
-/

namespace Starfish.Http.H1

open Quic (Bytes)
open Incremental

variable {S : Type}

namespace MessageParser

/-! ## One byte -/

def bodyByte (g : Grammar S) (p : MessageParser S) (b : UInt8) :
    Outcome HttpError (MessageParser S × Bool) :=
  (g.readBody p [b]).map fun r => (r.2, r.2.state != .body)

def chunkDataByte (p : MessageParser S) (b : UInt8) :
    Outcome HttpError (MessageParser S × Bool) :=
  (p.readChunkData [b]).map fun r => (r.2, r.2.state == .chunkTrailer)

def byte (g : Grammar S) (p : MessageParser S) (b : UInt8) :
    Outcome HttpError (MessageParser S × Bool) :=
  match p.state with
  | .requestLine | .statusLine =>
    if p.state = g.first then startLineByte g p b
    else .error (.parse "unexpected parser state" [])
  | .headerLine => headerLineByte g p b
  | .body => bodyByte g p b
  | .chunkSize => chunkSizeByte p b
  | .chunkData _ => chunkDataByte p b
  | .chunkTrailer => chunkTrailerByte p b
  | .complete => .ok (p, true)

def machine (g : Grammar S) : Machine (MessageParser S) UInt8 HttpError where
  step p b := (byte g p b).map Prod.fst
  done := isComplete

/-! ## Lines -/

variable {q : MessageParser S} {b : UInt8}

variable {p : MessageParser S} {finish : Bytes → Outcome HttpError (MessageParser S)}

theorem pushHeadByte_state (h : p.pushHeadByte b = .ok q) : q.state = p.state := by
  grind [pushHeadByte]

theorem onLine_eq_false
    (h : p.onLine finish = .ok (q, false)) : q = p ∧ stripLineEnding p.buf = none := by
  rw [onLine] at h
  split at h
  · obtain ⟨r, -, hr⟩ := Outcome.map_eq_ok.mp h
    cases hr
  · next hnone =>
      cases h
      exact ⟨rfl, hnone⟩

theorem onLine_eq_true (h : p.onLine finish = .ok (q, true)) :
    ∃ content, stripLineEnding p.buf = some content ∧ finish content = .ok q := by
  rw [onLine] at h
  split at h
  · next content hc =>
      obtain ⟨r, hf, hr⟩ := Outcome.map_eq_ok.mp h
      cases hr
      exact ⟨content, hc, hf⟩
  · cases h

variable {ended : Bool}

theorem headByte_eq_ok {next : MessageParser S → Outcome HttpError (MessageParser S × Bool)}
    (h : (Outcome.ofExcept (p.pushHeadByte b) >>= next) = .ok (q, ended)) :
    ∃ r, p.pushHeadByte b = .ok r ∧ next r = .ok (q, ended) := by
  obtain ⟨r, hr, hnext⟩ := Outcome.bind_eq_ok.mp h
  exact ⟨r, Outcome.ofExcept_ok_iff.mp hr, hnext⟩

theorem startLineByte_state {g : Grammar S} (h : startLineByte g p b = .ok (q, ended)) :
    q.state = if ended then .headerLine else p.state := by
  obtain ⟨r, hr, hline⟩ := headByte_eq_ok h
  cases ended with
  | false =>
    rw [(onLine_eq_false hline).1]
    exact pushHeadByte_state hr
  | true =>
    obtain ⟨content, -, hfinish⟩ := onLine_eq_true hline
    obtain ⟨start, -, hq⟩ := Outcome.map_eq_ok.mp hfinish
    rw [← hq]
    rfl

theorem parseHeader_state {line : Bytes} (h : p.parseHeader line = .ok q) : q.state = p.state := by
  grind [parseHeader]

theorem headerLineByte_cases {g : Grammar S} (h : headerLineByte g p b = .ok (q, ended)) :
    q.state = p.state ∨
      (ended = true ∧ ∃ r, r.state = p.state ∧ g.determineBodyKind r = .ok q) := by
  obtain ⟨r, hr, hline⟩ := headByte_eq_ok h
  cases ended with
  | false =>
    rw [(onLine_eq_false hline).1]
    exact .inl (pushHeadByte_state hr)
  | true =>
    obtain ⟨content, -, hfinish⟩ := onLine_eq_true hline
    rw [Outcome.ofExcept_ok_iff] at hfinish
    split at hfinish
    · have hstate : r.state = p.state := pushHeadByte_state hr
      grind
    · exact .inl ((parseHeader_state hfinish).trans (pushHeadByte_state hr))

theorem chunkSizeByte_cases (h : chunkSizeByte p b = .ok (q, ended)) :
    (ended = false ∧ q.state = p.state) ∨ (ended = true ∧ (q.state = .chunkTrailer ∨
      ∃ size, 0 < size ∧ q.state = .chunkData size)) := by
  rw [chunkSizeByte] at h
  split at h
  · cases h
  · cases ended with
    | false =>
      rw [(onLine_eq_false h).1]
      exact .inl ⟨rfl, rfl⟩
    | true =>
      obtain ⟨content, -, hfinish⟩ := onLine_eq_true h
      obtain ⟨size, -, hq⟩ := Outcome.map_eq_ok.mp hfinish
      grind

theorem chunkTrailerByte_state (h : chunkTrailerByte p b = .ok (q, ended)) :
    q.state = if ended then (if p.sawLastChunk then .complete else .chunkSize) else p.state := by
  cases ended with
  | false =>
    rw [(onLine_eq_false h).1]
    rfl
  | true =>
    obtain ⟨content, -, hfinish⟩ := onLine_eq_true h
    cases hfinish
    rfl

/-! ## Bodies -/

theorem readFixed_eq (p : MessageParser S) (data : Bytes) :
    p.readFixed data = .ok (min p.bodyRemaining data.length, { p with
      body := p.body ++ data.take (min p.bodyRemaining data.length)
      bodyRemaining := p.bodyRemaining - min p.bodyRemaining data.length
      state := if p.bodyRemaining - min p.bodyRemaining data.length = 0 then .complete
        else p.state }) := by
  simp [readFixed, Outcome.range_of_le, Outcome.sub_of_le]

def fixedByte (p : MessageParser S) (b : UInt8) : MessageParser S :=
  { p with
    body := p.body ++ [b]
    bodyRemaining := p.bodyRemaining - 1
    state := if p.bodyRemaining - 1 = 0 then .complete else p.state }

theorem readFixed_cons (hrem : 0 < p.bodyRemaining) (b : UInt8)
    (rest : Bytes) : p.readFixed (b :: rest) =
      if p.bodyRemaining = 1 then .ok (1, p.fixedByte b)
      else shift 1 ((p.fixedByte b).readFixed rest) := by
  have hmin : min p.bodyRemaining (rest.length + 1) =
      min (p.bodyRemaining - 1) rest.length + 1 := by omega
  rw [readFixed_eq, readFixed_eq, List.length_cons, hmin, List.take_succ_cons]
  by_cases hlast : p.bodyRemaining = 1
  · simp [fixedByte, hlast]
  · have hne : p.bodyRemaining - 1 ≠ 0 := by omega
    have hsub : p.bodyRemaining - (min (p.bodyRemaining - 1) rest.length + 1) =
        p.bodyRemaining - 1 - min (p.bodyRemaining - 1) rest.length := by omega
    simp only [fixedByte, hlast, hne, hsub, if_false, shift_ok, Nat.add_comm 1,
      List.append_assoc, List.singleton_append]

theorem readFixed_singleton (hrem : 0 < p.bodyRemaining) (b : UInt8) :
    p.readFixed [b] = .ok (1, p.fixedByte b) := by
  rw [readFixed_cons hrem]
  split
  · rfl
  · next hmore =>
      have hne : p.bodyRemaining - 1 ≠ 0 := by omega
      simp [readFixed_eq, fixedByte, hne]

def chunkByte (p : MessageParser S) (remaining : Nat) (b : UInt8) : MessageParser S :=
  { p with
    body := p.body ++ [b]
    state := if remaining - 1 = 0 then .chunkTrailer else .chunkData (remaining - 1) }

variable {remaining : Nat}

theorem readChunkData_eq (hstate : p.state = .chunkData remaining) (data : Bytes) :
    p.readChunkData data = .ok (min data.length remaining, { p with
      body := p.body ++ data.take (min data.length remaining)
      state := if remaining - min data.length remaining = 0 then .chunkTrailer
        else .chunkData (remaining - min data.length remaining) }) := by
  rw [readChunkData, hstate]
  simp [Outcome.range_of_le, Outcome.sub_of_le]

theorem readChunkData_cons (hstate : p.state = .chunkData remaining)
    (hrem : 0 < remaining) (b : UInt8) (rest : Bytes) : p.readChunkData (b :: rest) =
      if remaining = 1 then .ok (1, p.chunkByte remaining b)
      else shift 1 ((p.chunkByte remaining b).readChunkData rest) := by
  have hmin : min (rest.length + 1) remaining = min rest.length (remaining - 1) + 1 := by omega
  rw [readChunkData_eq hstate, List.length_cons, hmin, List.take_succ_cons]
  by_cases hlast : remaining = 1
  · simp [chunkByte, hlast]
  · have hne : remaining - 1 ≠ 0 := by omega
    rw [if_neg hlast, readChunkData_eq (p := p.chunkByte remaining b) (if_neg hne)]
    grind [chunkByte, shift_ok]

theorem readChunkData_singleton (hstate : p.state = .chunkData remaining)
    (hrem : 0 < remaining) (b : UInt8) :
    p.readChunkData [b] = .ok (1, p.chunkByte remaining b) := by
  rw [readChunkData_cons hstate hrem]
  split
  · rfl
  · next hmore =>
      have hne : remaining - 1 ≠ 0 := by omega
      have hnext : (p.chunkByte remaining b).state = .chunkData (remaining - 1) := by
        simp [chunkByte, hne]
      rw [readChunkData_eq hnext]
      simp [chunkByte]

/-! ## Blocks -/

/-- What the byte machine needs of a grammar: in the states that meet `bodyReady`, a body is
read byte by byte, and the head ends in a state from which the message can be read. -/
structure Lawful (g : Grammar S) (bodyReady : MessageParser S → Prop) : Prop where
  body : ∀ p data, p.state = .body → bodyReady p → g.readBody p data = scan (bodyByte g) p data
  bodyKeeps : ∀ p b q, p.state = .body → bodyReady p → bodyByte g p b = .ok (q, false) →
    q.state = .body ∧ bodyReady q
  bodyEnds : ∀ p b q, p.state = .body → bodyReady p → bodyByte g p b = .ok (q, true) →
    q.state = .complete
  bodyTotal : ∀ p b, p.state = .body → bodyReady p → bodyByte g p b ≠ .panic
  determine : ∀ p q, g.determineBodyKind p = .ok q →
    q.state = .chunkSize ∨ q.state = .complete ∨ (q.state = .body ∧ bodyReady q)

structure Ready (g : Grammar S) (bodyReady : MessageParser S → Prop) (p : MessageParser S) :
    Prop where
  start : p.state = .requestLine ∨ p.state = .statusLine → p.state = g.first
  body : p.state = .body → bodyReady p
  chunkData : ∀ remaining, p.state = .chunkData remaining → 0 < remaining

section Blocks

variable {g : Grammar S} {bodyReady : MessageParser S → Prop}

variable {p : MessageParser S}

theorem ready_of_line (h : p.state = .headerLine ∨ p.state = .chunkSize ∨
    p.state = .chunkTrailer ∨ p.state = .complete) : Ready g bodyReady p := by
  constructor <;> rcases h with h | h | h | h <;> simp [h]

theorem ready_of_body (h : p.state = .body) (hready : bodyReady p) : Ready g bodyReady p := by
  constructor <;> simp [h, hready]

variable {remaining : Nat}

theorem ready_of_chunkData (h : p.state = .chunkData remaining)
    (hrem : 0 < remaining) : Ready g bodyReady p := by
  constructor <;> simp [h, hrem]

theorem chunkDataByte_eq (hstate : p.state = .chunkData remaining)
    (hrem : 0 < remaining) (b : UInt8) :
    chunkDataByte p b = .ok (p.chunkByte remaining b, decide (remaining = 1)) := by
  rw [chunkDataByte, readChunkData_singleton hstate hrem]
  by_cases hlast : remaining = 1
  all_goals grind [Outcome.map, chunkByte]

variable {q : MessageParser S} {b : UInt8}

theorem chunkDataByte_keeps (hstate : p.state = .chunkData remaining)
    (hrem : 0 < remaining) (h : chunkDataByte p b = .ok (q, false)) :
    ∃ n, 0 < n ∧ q.state = .chunkData n := by
  rw [chunkDataByte_eq hstate hrem] at h
  simp only [Outcome.ok.injEq, Prod.mk.injEq, decide_eq_false_iff_not] at h
  refine ⟨remaining - 1, by omega, ?_⟩
  rw [← h.1, chunkByte]
  exact if_neg (by omega)

theorem readChunkData_eq_scan (hstate : p.state = .chunkData remaining)
    (hrem : 0 < remaining) (data : Bytes) : p.readChunkData data = scan chunkDataByte p data := by
  refine eq_scan (K := fun p : MessageParser S => ∃ n, 0 < n ∧ p.state = .chunkData n)
    ?_ ?_ ?_ ⟨remaining, hrem, hstate⟩ data
  · rintro p ⟨n, hn, hp⟩
    simp [readChunkData_eq hp, Nat.ne_of_gt hn, ← hp]
  · rintro p b rest ⟨n, hn, hp⟩
    rw [readChunkData_cons hp hn, chunkDataByte_eq hp hn, Outcome.bind]
    simp only [decide_eq_true_eq]
  · grind [chunkDataByte_keeps]

/-- Where a byte leads: it is buffered, a body or a chunk goes on or begins, or a line or a body
has ended. -/
inductive Next (bodyReady : MessageParser S → Prop) (p q : MessageParser S) : Bool → Prop
  | buffered : q.state = p.state → p.state ≠ .complete → p.state ≠ .body →
      (∀ n, p.state ≠ .chunkData n) → Next bodyReady p q false
  | body (ended : Bool) : q.state = .body → bodyReady q → Next bodyReady p q ended
  | chunk (ended : Bool) (n : Nat) : q.state = .chunkData n → 0 < n → Next bodyReady p q ended
  | line (ended : Bool) : q.state = .headerLine ∨ q.state = .chunkSize ∨ q.state = .chunkTrailer →
      Next bodyReady p q ended
  | complete : q.state = .complete → Next bodyReady p q true

theorem byte_next (hg : Lawful g bodyReady)
    (hp : Ready g bodyReady p) (hopen : p.state ≠ .complete) (h : byte g p b = .ok (q, ended)) :
    Next bodyReady p q ended := by
  rw [byte] at h
  cases hstate : p.state with
  | requestLine | statusLine =>
    have hfirst := hp.start (by simp [hstate])
    rw [hstate] at hfirst
    simp only [hstate] at h
    rw [if_pos hfirst] at h
    have hq := startLineByte_state h
    cases ended with
    | true => exact .line _ (.inl hq)
    | false => exact .buffered hq hopen (by simp [hstate]) (by simp [hstate])
  | headerLine =>
    simp only [hstate] at h
    rcases headerLineByte_cases h with hq | ⟨rfl, r, -, hr⟩
    · exact .line _ (.inl (hq.trans hstate))
    · rcases hg.determine r q hr with hq | hq | ⟨hq, hready⟩
      · exact .line _ (.inr (.inl hq))
      · exact .complete hq
      · exact .body _ hq hready
  | body =>
    simp only [hstate] at h
    cases ended with
    | false =>
      obtain ⟨hq, hready⟩ := hg.bodyKeeps p b q hstate (hp.body hstate) h
      exact .body _ hq hready
    | true => exact .complete (hg.bodyEnds p b q hstate (hp.body hstate) h)
  | chunkSize =>
    simp only [hstate] at h
    rcases chunkSizeByte_cases h with ⟨rfl, hq⟩ | ⟨-, hq | ⟨size, hsize, hq⟩⟩
    · exact .line _ (.inr (.inl (hq.trans hstate)))
    · exact .line _ (.inr (.inr hq))
    · exact .chunk _ size hq hsize
  | chunkData remaining =>
    have hrem := hp.chunkData remaining hstate
    simp only [hstate] at h
    rw [chunkDataByte_eq hstate hrem] at h
    cases h
    by_cases hlast : remaining - 1 = 0
    · exact .line _ (.inr (.inr (if_pos hlast)))
    · exact .chunk _ (remaining - 1) (if_neg hlast) (Nat.pos_of_ne_zero hlast)
  | chunkTrailer =>
    simp only [hstate] at h
    have hq := chunkTrailerByte_state h
    cases ended with
    | true =>
      cases hlast : p.sawLastChunk with
      | true =>
        rw [hlast] at hq
        exact .complete hq
      | false =>
        rw [hlast] at hq
        exact .line _ (.inr (.inl hq))
    | false => exact .buffered hq hopen (by simp [hstate]) (by simp [hstate])
  | complete => exact absurd hstate hopen

theorem byte_ready (hg : Lawful g bodyReady)
    (hp : Ready g bodyReady p) (hopen : p.state ≠ .complete) (h : byte g p b = .ok (q, ended)) :
    Ready g bodyReady q ∧ (ended = false → q.state ≠ .complete) := by
  cases byte_next hg hp hopen h with
  | buffered hq _ hbody hchunk =>
    refine ⟨⟨fun hs => ?_, fun hs => ?_, fun n hs => ?_⟩, fun _ => ?_⟩
    all_goals grind [cases Ready]
  | body _ hq hready => exact ⟨ready_of_body hq hready, by simp [hq]⟩
  | chunk _ n hq hn => exact ⟨ready_of_chunkData hq hn, by simp [hq]⟩
  | line _ hq =>
    grind [ready_of_line]
  | complete hq => exact ⟨ready_of_line (by simp [hq]), by simp⟩

/-- A state that handles its data with a scan of `f` handles it byte by byte, as long as `f` is
what it does with a byte. -/
theorem scan_eq_scan_byte {state : ParseState} {f : MessageParser S → UInt8 →
      Outcome HttpError (MessageParser S × Bool)}
    (hbyte : ∀ p b, p.state = state → byte g p b = f p b)
    (hkeep : ∀ p b q, p.state = state → f p b = .ok (q, false) → q.state = state)
    (hp : p.state = state) (data : Bytes) : scan f p data = scan (byte g) p data :=
  scan_congr (K := fun p : MessageParser S => p.state = state)
    (fun p b h => (hbyte p b h).symm)
    (fun p b q h hq => hkeep p b q h (by rwa [← hbyte p b h])) hp data

theorem parseBlock_eq_scan (hg : Lawful g bodyReady)
    (hp : Ready g bodyReady p) (hopen : p.state ≠ .complete) (data : Bytes) :
    parseBlock g p data = scan (byte g) p data := by
  cases hstate : p.state with
  | requestLine | statusLine =>
    have hfirst := hp.start (by simp [hstate])
    rw [hstate] at hfirst
    rw [parseBlock, hstate]
    simp only [if_pos hfirst]
    refine scan_eq_scan_byte (fun q b hq => ?_) (fun q b r hq hr => ?_) hstate data
    · simp only [byte, hq, if_pos hfirst]
    · exact (startLineByte_state hr).trans hq
  | headerLine =>
    rw [parseBlock, hstate]
    refine scan_eq_scan_byte (fun q b hq => by simp only [byte, hq]) (fun q b r hq hr => ?_)
      hstate data
    grind [headerLineByte_cases]
  | body =>
    rw [parseBlock, hstate]
    rw [hg.body p data hstate (hp.body hstate)]
    refine scan_congr (K := fun q : MessageParser S => q.state = .body ∧ bodyReady q)
      (fun q b hq => by simp only [byte, hq.1]) (fun q b r hq hr => ?_)
      ⟨hstate, hp.body hstate⟩ data
    grind [cases Lawful, byte]
  | chunkSize =>
    rw [parseBlock, hstate]
    refine scan_eq_scan_byte (fun q b hq => by simp only [byte, hq]) (fun q b r hq hr => ?_)
      hstate data
    grind [chunkSizeByte_cases]
  | chunkData remaining =>
    rw [parseBlock, hstate]
    rw [readChunkData_eq_scan hstate (hp.chunkData remaining hstate)]
    refine scan_congr (K := fun q : MessageParser S => ∃ n, 0 < n ∧ q.state = .chunkData n)
      (fun q b hq => ?_) (fun q b r hq hr => ?_)
      ⟨remaining, hp.chunkData remaining hstate, hstate⟩ data
    all_goals grind [byte, chunkDataByte_keeps]
  | chunkTrailer =>
    rw [parseBlock, hstate]
    refine scan_eq_scan_byte (fun q b hq => by simp only [byte, hq]) (fun q b r hq hr => ?_)
      hstate data
    exact (chunkTrailerByte_state hr).trans hq
  | complete => exact absurd hstate hopen

theorem parseBlock_advances (hg : Lawful g bodyReady) (p : MessageParser S) (data : Bytes)
    (hp : Ready g bodyReady p) (hopen : (machine g).done p = false) (hne : data ≠ []) :
    Advances (machine g) (Ready g bodyReady) p data (parseBlock g p data) := by
  have hstate : p.state ≠ .complete := by simpa [machine, isComplete] using hopen
  rw [parseBlock_eq_scan hg hp hstate]
  refine scan_advances (K := fun p => Ready g bodyReady p ∧ p.state ≠ .complete)
    (fun q hq => by simpa [machine, isComplete] using hq.2) (fun q b _ => rfl)
    (fun q b r hq hr => ?_) (fun q b r hq hr => ?_) (fun q hq => hq.1) ⟨hp, hstate⟩ hne
  all_goals grind [byte_ready]

theorem step_ready (hg : Lawful g bodyReady) (p : MessageParser S) (b : UInt8)
    (q : MessageParser S) (hp : Ready g bodyReady p) (hopen : (machine g).done p = false)
    (h : (machine g).step p b = .ok q) : Ready g bodyReady q := by
  obtain ⟨r, hr, rfl⟩ := Outcome.map_eq_ok.mp h
  exact (byte_ready hg hp (by simpa [machine, isComplete] using hopen) hr).1

/-- `feed` ends, and is a run of the byte machine. -/
theorem feed_eq (hg : Lawful g bodyReady) (hp : Ready g bodyReady p)
    (data : Bytes) : feed g p data = some ((machine g).feed p data) :=
  loop_eq_feed (m := machine g) (parseBlock_advances hg) hp data

theorem feedPieces_eq (hg : Lawful g bodyReady) (hp : Ready g bodyReady p) (pieces : List Bytes) :
    feedPieces (feed g) isComplete p pieces = some ((machine g).feed p pieces.flatten) :=
  feedPieces_eq_feed (m := machine g) (step_ready hg) (fun _ data hq => feed_eq hg hq data) hp
    pieces

end Blocks

end MessageParser

/-! ## Requests and responses -/

open MessageParser

/-- A body of known length of which something is left. -/
def FixedReady (p : MessageParser S) : Prop :=
  0 < p.bodyRemaining ∧ ∃ len, p.bodyKind = .contentLength len

/-- Framing by the headers: chunks, no body, a body of known length, or the rule for a message
without a length. -/
theorem frameByHeaders_cases {p q otherwise : MessageParser S}
    (h : p.frameByHeaders otherwise = .ok q) :
    q.state = .chunkSize ∨ q.state = .complete ∨ (q.state = .body ∧ FixedReady q) ∨
      q = otherwise := by
  rw [frameByHeaders] at h
  split at h
  · cases h
    exact .inl rfl
  · split at h
    · cases h
    · next len _ =>
        split at h
        · cases h
          exact .inr (.inl rfl)
        · cases h
          exact .inr (.inr (.inl ⟨rfl, by show 0 < len; omega, len, rfl⟩))
    · cases h
      exact .inr (.inr (.inr rfl))

section Fixed

variable {g : Grammar S} (hread : ∀ p data, FixedReady p → g.readBody p data = p.readFixed data)
include hread

variable {p : MessageParser S}

theorem bodyByte_of_fixed (hstate : p.state = .body) (hready : FixedReady p)
    (b : UInt8) : bodyByte g p b = .ok (p.fixedByte b, decide (p.bodyRemaining = 1)) := by
  rw [bodyByte, hread p _ hready, readFixed_singleton hready.1]
  by_cases hlast : p.bodyRemaining = 1
  · simp [Outcome.map, fixedByte, hlast]
  · have hne : p.bodyRemaining - 1 ≠ 0 := by have := hready.1; omega
    simp [Outcome.map, fixedByte, hlast, hne, hstate]

theorem fixed_keeps {q : MessageParser S} {b : UInt8} (hstate : p.state = .body)
    (hready : FixedReady p) (h : bodyByte g p b = .ok (q, false)) :
    q.state = .body ∧ FixedReady q := by
  rw [bodyByte_of_fixed hread hstate hready] at h
  simp only [Outcome.ok.injEq, Prod.mk.injEq, decide_eq_false_iff_not] at h
  obtain ⟨rfl, hmore⟩ := h
  have hne : p.bodyRemaining - 1 ≠ 0 := by have := hready.1; omega
  exact ⟨(if_neg hne).trans hstate, Nat.pos_of_ne_zero hne, hready.2⟩

theorem fixed_ends {q : MessageParser S} {b : UInt8} (hstate : p.state = .body)
    (hready : FixedReady p) (h : bodyByte g p b = .ok (q, true)) : q.state = .complete := by
  rw [bodyByte_of_fixed hread hstate hready] at h
  simp only [Outcome.ok.injEq, Prod.mk.injEq, decide_eq_true_eq] at h
  obtain ⟨rfl, hlast⟩ := h
  exact if_pos (by omega)

theorem fixed_total (hstate : p.state = .body) (hready : FixedReady p)
    (b : UInt8) : bodyByte g p b ≠ .panic := by
  rw [bodyByte_of_fixed hread hstate hready]
  nofun

theorem fixed_scan (hstate : p.state = .body) (hready : FixedReady p)
    (data : Bytes) : g.readBody p data = scan (bodyByte g) p data := by
  refine eq_scan (K := fun p : MessageParser S => p.state = .body ∧ FixedReady p)
    ?_ ?_ (fun p b q hp hq => fixed_keeps hread hp.1 hp.2 hq) ⟨hstate, hready⟩ data
  · rintro p ⟨-, hp⟩
    have hne : p.bodyRemaining ≠ 0 := Nat.ne_of_gt hp.1
    simp [hread p [] hp, readFixed_eq, hne]
  · rintro p b rest ⟨hp, hfix⟩
    rw [hread p _ hfix, readFixed_cons hfix.1, bodyByte_of_fixed hread hp hfix, Outcome.bind]
    by_cases hlast : p.bodyRemaining = 1
    · simp [hlast]
    · have hne : p.bodyRemaining - 1 ≠ 0 := by have := hfix.1; omega
      rw [hread (p.fixedByte b) rest ⟨Nat.pos_of_ne_zero hne, hfix.2⟩]
      simp

end Fixed

namespace RequestParser

theorem lawful : Lawful grammar FixedReady where
  body _ data hstate hready := fixed_scan (fun _ _ _ => rfl) hstate hready data
  bodyKeeps _ _ _ hstate hready h := fixed_keeps (fun _ _ _ => rfl) hstate hready h
  bodyEnds _ _ _ hstate hready h := fixed_ends (fun _ _ _ => rfl) hstate hready h
  bodyTotal _ b hstate hready := fixed_total (fun _ _ _ => rfl) hstate hready b
  determine p q h := by
    rcases frameByHeaders_cases h with h | h | h | rfl
    all_goals grind

theorem new_ready : Ready grammar FixedReady new := by
  constructor <;> simp [new, MessageParser.new, grammar]

end RequestParser

namespace ResponseParser

def BodyReady (p : ResponseParser) : Prop := FixedReady p ∨ p.bodyKind = .untilClose

theorem readBody_of_fixed (p : ResponseParser) (data : Bytes) (h : FixedReady p) :
    grammar.readBody p data = p.readFixed data := by
  obtain ⟨-, len, hkind⟩ := h
  simp only [grammar, readBody, hkind]

variable {p : ResponseParser}

theorem readBody_untilClose (h : p.bodyKind = .untilClose) (data : Bytes) :
    grammar.readBody p data = .ok (data.length, { p with body := p.body ++ data }) := by
  simp only [grammar, readBody, h]

theorem bodyByte_untilClose (hstate : p.state = .body) (h : p.bodyKind = .untilClose) (b : UInt8) :
    bodyByte grammar p b = .ok ({ p with body := p.body ++ [b] }, false) := by
  simp [bodyByte, readBody_untilClose h, Outcome.map, hstate]

theorem untilClose_scan (hstate : p.state = .body) (h : p.bodyKind = .untilClose) (data : Bytes) :
    grammar.readBody p data = scan (bodyByte grammar) p data := by
  refine eq_scan (K := fun p : ResponseParser => p.state = .body ∧ p.bodyKind = .untilClose)
    ?_ ?_ ?_ ⟨hstate, h⟩ data
  · rintro p ⟨-, hp⟩
    simp [readBody_untilClose hp]
  · rintro p b rest ⟨hs, hp⟩
    rw [readBody_untilClose hp, bodyByte_untilClose hs hp, Outcome.bind]
    rw [if_neg Bool.false_ne_true, readBody_untilClose (p := { p with body := p.body ++ [b] }) hp]
    simp [Nat.add_comm]
  · grind [bodyByte_untilClose]

theorem lawful : Lawful grammar BodyReady where
  body p data hstate hready := by
    rcases hready with h | h
    · exact fixed_scan readBody_of_fixed hstate h data
    · exact untilClose_scan hstate h data
  bodyKeeps p b q hstate hready hq := by
    rcases hready with h | h
    · exact (fixed_keeps readBody_of_fixed hstate h hq).imp_right .inl
    · rw [bodyByte_untilClose hstate h] at hq
      cases hq
      exact ⟨hstate, .inr h⟩
  bodyEnds p b q hstate hready hq := by
    rcases hready with h | h
    · exact fixed_ends readBody_of_fixed hstate h hq
    · rw [bodyByte_untilClose hstate h] at hq
      cases hq
  bodyTotal p b hstate hready := by
    rcases hready with h | h
    · exact fixed_total readBody_of_fixed hstate h b
    · rw [bodyByte_untilClose hstate h]
      nofun
  determine p q h := by
    change ResponseParser.determineBodyKind p = .ok q at h
    rw [ResponseParser.determineBodyKind] at h
    split at h
    · cases h
      exact .inr (.inl rfl)
    · rcases frameByHeaders_cases h with h | h | h | rfl
      · exact .inl h
      · exact .inr (.inl h)
      · exact .inr (.inr (h.imp_right .inl))
      · exact .inr (.inr ⟨rfl, .inr rfl⟩)

theorem new_ready : Ready grammar BodyReady new := by
  constructor <;> simp [new, MessageParser.new, grammar]

end ResponseParser

end Starfish.Http.H1
