import Starfish.Http.H1.Feed

/-!
# Lines of the head

What the byte machine does with a whole line of the head: its bytes are buffered and
counted, and at the line feed the line is handled without its ending (`run_headLine`). Bytes
without a line feed are only buffered (`run_headPart`).
-/

namespace Starfish.Http.H1

open Quic (Bytes)
open Incremental

variable {S : Type}

def stripCr (line : Bytes) : Bytes := if line.getLast? = some 0x0d then line.dropLast else line

theorem stripLineEnding_concat (s : Bytes) (b : UInt8) :
    stripLineEnding (s ++ [b]) = if b = 0x0a then some (stripCr s) else none := by
  rw [stripLineEnding, List.getLast?_concat, List.dropLast_concat]
  by_cases hb : b = 0x0a
  · rw [if_pos (by rw [hb]), if_pos hb, stripCr]
    exact (apply_ite some _ _ _).symm
  · rw [if_neg (by simpa using hb), if_neg hb]

@[simp] theorem stripCr_concat (s : Bytes) : stripCr (s ++ [0x0d]) = s := by
  simp [stripCr]

theorem stripCr_cases (line : Bytes) : line = stripCr line ∨ line = stripCr line ++ [0x0d] := by
  grind [stripCr, List.dropLast_append_getLast?]

theorem stripCr_of_getLast {s : Bytes} {b : UInt8} (h : b ≠ 0x0d) : stripCr (s ++ [b]) = s ++ [b] := by
  rw [stripCr, List.getLast?_concat, if_neg (by simpa using h)]

namespace MessageParser

def pushed (p : MessageParser S) (bytes : Bytes) : MessageParser S :=
  { p with buf := p.buf ++ bytes, headerBytesRead := p.headerBytesRead + bytes.length }

@[simp] theorem pushed_nil (p : MessageParser S) : p.pushed [] = p := by simp [pushed]

theorem pushed_pushed (p : MessageParser S) (s t : Bytes) :
    (p.pushed s).pushed t = p.pushed (s ++ t) := by
  simp [pushed, Nat.add_assoc]

theorem pushHeadByte_eq (p : MessageParser S) (b : UInt8) :
    p.pushHeadByte b =
      if p.headerBytesRead + 1 ≤ maxHeaderSize then .ok (p.pushed [b])
      else .error .headerTooLarge := by
  rw [pushHeadByte]
  by_cases h : p.headerBytesRead + 1 ≤ maxHeaderSize
  · rw [if_neg (by omega), if_pos h]
    rfl
  · rw [if_pos (by omega), if_neg h]

/-- In this state a line of the head is read, which is handled by `finish`. -/
structure ReadsHead (g : Grammar S) (state : ParseState)
    (finish : MessageParser S → Bytes → Outcome HttpError (MessageParser S)) : Prop where
  opened : state ≠ .complete
  byte : ∀ p b, p.state = state → MessageParser.byte g p b =
    Outcome.ofExcept (p.pushHeadByte b) >>= fun q => q.onLine (finish q)

section HeadLines

variable {g : Grammar S} {state : ParseState}
  {finish : MessageParser S → Bytes → Outcome HttpError (MessageParser S)}

variable {p : MessageParser S}

theorem ReadsHead.step_of_ne (h : ReadsHead g state finish) (hp : p.state = state) {b : UInt8}
    (hb : b ≠ 0x0a) :
    (machine g).step p b =
      if p.headerBytesRead + 1 ≤ maxHeaderSize then .ok (p.pushed [b])
      else .error .headerTooLarge := by
  change (MessageParser.byte g p b).map Prod.fst = _
  rw [h.byte p b hp, pushHeadByte_eq]
  split
  · change (onLine _ _).map Prod.fst = _
    rw [onLine, pushed, stripLineEnding_concat, if_neg hb]
    rfl
  · rfl

theorem ReadsHead.step_newline (h : ReadsHead g state finish) (hp : p.state = state) :
    (machine g).step p 0x0a =
      if p.headerBytesRead + 1 ≤ maxHeaderSize then finish (p.pushed [0x0a]) (stripCr p.buf)
      else .error .headerTooLarge := by
  change (MessageParser.byte g p 0x0a).map Prod.fst = _
  rw [h.byte p _ hp, pushHeadByte_eq]
  split
  · change (onLine _ _).map Prod.fst = _
    have hstrip : stripLineEnding (p.pushed [0x0a]).buf = some (stripCr p.buf) := by
      rw [pushed, stripLineEnding_concat, if_pos rfl]
    rw [onLine, hstrip]
    change ((finish _ _).map _).map _ = _
    cases finish (p.pushed [0x0a]) (stripCr p.buf) <;> rfl
  · rfl

theorem ReadsHead.not_done (h : ReadsHead g state finish) (hp : p.state = state) :
    (machine g).done p = false := by
  simp [machine, isComplete, hp, h.opened]

theorem run_headPart (h : ReadsHead g state finish) (hp : p.state = state) {data : Bytes}
    (hdata : (0x0a : UInt8) ∉ data) (hcount : p.headerBytesRead ≤ maxHeaderSize) :
    (machine g).run p data =
      if p.headerBytesRead + data.length ≤ maxHeaderSize then .ok (data.length, p.pushed data)
      else .error .headerTooLarge := by
  induction data generalizing p with
  | nil => simp [hcount]
  | cons b rest ih =>
    rw [List.mem_cons, not_or] at hdata
    rw [Machine.run_cons _ (h.not_done hp), h.step_of_ne hp (Ne.symm hdata.1)]
    by_cases hone : p.headerBytesRead + 1 ≤ maxHeaderSize
    · rw [if_pos hone, Outcome.bind, ih (p := p.pushed [b]) hp hdata.2 hone, pushed_pushed]
      have hsum : (p.pushed [b]).headerBytesRead + rest.length =
          p.headerBytesRead + (b :: rest).length := by
        grind [pushed]
      rw [hsum]
      split
      · simp [Nat.add_comm]
      · rfl
    · rw [if_neg hone, if_neg (by rw [List.length_cons]; omega)]
      rfl

theorem run_headLine (h : ReadsHead g state finish) (hp : p.state = state) (line : Bytes)
    (hline : (0x0a : UInt8) ∉ line) (hcount : p.headerBytesRead ≤ maxHeaderSize) (rest : Bytes) :
    (machine g).run p (line ++ 0x0a :: rest) =
      if p.headerBytesRead + line.length + 1 ≤ maxHeaderSize then
        (finish (p.pushed (line ++ [0x0a])) (stripCr (p.buf ++ line))).bind fun q =>
          shift (line.length + 1) ((machine g).run q rest)
      else .error .headerTooLarge := by
  rw [Machine.run_append, run_headPart h hp hline hcount]
  by_cases hpart : p.headerBytesRead + line.length ≤ maxHeaderSize
  · rw [if_pos hpart, followed_ok,
      Machine.run_cons _ (h.not_done (p := p.pushed line) hp), h.step_newline (p := p.pushed line) hp]
    have hsum : (p.pushed line).headerBytesRead + 1 = p.headerBytesRead + line.length + 1 := rfl
    rw [hsum, pushed_pushed]
    split
    · change shift _ (Outcome.bind (finish _ (stripCr (p.buf ++ line))) _) = _
      cases finish (p.pushed (line ++ [0x0a])) (stripCr (p.buf ++ line)) with
      | ok q =>
        change shift _ (shift 1 _) = _
        rw [shift_shift]
        rfl
      | error e => rfl
      | panic => rfl
    · rfl
  · rw [if_neg hpart, if_neg (by omega)]
    rfl

end HeadLines

/-! ## The states that read the head -/

def finishStart (g : Grammar S) (p : MessageParser S) (content : Bytes) :
    Outcome HttpError (MessageParser S) :=
  (g.parseStart content).map fun start => { p with start, buf := [], state := .headerLine }

def finishHeader (g : Grammar S) (p : MessageParser S) (content : Bytes) :
    Outcome HttpError (MessageParser S) :=
  Outcome.ofExcept <|
    if content.isEmpty then g.determineBodyKind { p with buf := [] } else p.parseHeader content

theorem readsHead_start {g : Grammar S} (hfirst : g.first = .requestLine ∨ g.first = .statusLine) :
    ReadsHead g g.first (finishStart g) where
  opened := by rcases hfirst with h | h <;> simp [h]
  byte p b hp := by
    rcases hfirst with h | h <;>
    · rw [MessageParser.byte, hp, h]
      exact if_pos rfl

theorem readsHead_header (g : Grammar S) : ReadsHead g .headerLine (finishHeader g) where
  opened := by simp
  byte p b hp := by
    rw [MessageParser.byte, hp]
    rfl

end MessageParser

end Starfish.Http.H1
