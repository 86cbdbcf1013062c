import Starfish.Http.H1.Progress

/-!
# Hostile bytes

Which inputs make a parser panic. After the start line none does (`run_ne_panic`), so the
question is which start lines do: for requests those that end right after `HTTP/1.`, whose
version digit is read without a check, for responses those with a character that is cut by the
fixed offsets of the status code.
-/

namespace Starfish.Http.H1

open Quic (Bytes)
open Incremental

variable {S : Type}

namespace MessageParser

section Totality

variable {g : Grammar S} {bodyReady : MessageParser S → Prop}

variable {p : MessageParser S}

theorem Next.pastStart {q : MessageParser S} {ended : Bool} (h : Next bodyReady p q ended)
    (hp : PastStart p) : PastStart q := by
  cases h with
  | buffered hq => rwa [PastStart, hq]
  | body _ hq | chunk _ n hq => simp [PastStart, hq]
  | line _ hq => rcases hq with hq | hq | hq <;> simp [PastStart, hq]
  | complete hq => simp [PastStart, hq]

theorem onLine_ne_panic {finish : Bytes → Outcome HttpError (MessageParser S)}
    (h : ∀ content, finish content ≠ .panic) :
    p.onLine finish ≠ .panic := by
  rw [onLine]
  split
  · next content _ => exact fun hp => h content (Outcome.map_eq_panic.mp hp)
  · rintro ⟨⟩

theorem byte_ne_panic (hg : Lawful g bodyReady) (hp : Ready g bodyReady p) (hpast : PastStart p)
    (b : UInt8) : byte g p b ≠ .panic := by
  rw [byte]
  cases hstate : p.state with
  | requestLine => exact absurd hstate hpast.1
  | statusLine => exact absurd hstate hpast.2
  | headerLine =>
    change (Outcome.ofExcept (p.pushHeadByte b) >>= _) ≠ _
    cases p.pushHeadByte b with
    | ok q => exact onLine_ne_panic fun content => Outcome.ofExcept_ne_panic _
    | error e => rintro ⟨⟩
  | body => exact hg.bodyTotal p b hstate (hp.body hstate)
  | chunkSize =>
    change chunkSizeByte p b ≠ _
    rw [chunkSizeByte]
    split
    · rintro ⟨⟩
    · exact onLine_ne_panic fun content h =>
        Outcome.ofExcept_ne_panic _ (Outcome.map_eq_panic.mp h)
  | chunkData remaining =>
    rw [chunkDataByte_eq hstate (hp.chunkData remaining hstate)]
    rintro ⟨⟩
  | chunkTrailer => exact onLine_ne_panic fun content => by rintro ⟨⟩
  | complete => rintro ⟨⟩

theorem run_ne_panic (hg : Lawful g bodyReady) (hp : Ready g bodyReady p) (hpast : PastStart p)
    (data : Bytes) : (machine g).run p data ≠ .panic := by
  induction data generalizing p with
  | nil => rintro ⟨⟩
  | cons b rest ih =>
    by_cases hdone : (machine g).done p = true
    · rw [Machine.run_of_done _ hdone]
      rintro ⟨⟩
    · rw [Bool.not_eq_true] at hdone
      have hopen : p.state ≠ .complete := by simpa [machine, isComplete] using hdone
      rw [Machine.run_cons _ hdone]
      change ((byte g p b).map Prod.fst).bind _ ≠ _
      cases hb : byte g p b with
      | ok r =>
        have hready := (byte_ready hg hp hopen hb).1
        have hnext := (byte_next hg hp hopen hb).pastStart hpast
        exact fun h => ih hready hnext (Outcome.map_eq_panic.mp h)
      | error e => rintro ⟨⟩
      | panic => exact absurd hb (byte_ne_panic hg hp hpast b)

theorem run_new_eq_panic_iff (hg : Lawful g bodyReady)
    (hfirst : g.first = .requestLine ∨ g.first = .statusLine) (data : Bytes) :
    (machine g).run (new g) data = .panic ↔
      ∃ line rest, data = line ++ 0x0a :: rest ∧ (0x0a : UInt8) ∉ line ∧
        line.length + 1 ≤ maxHeaderSize ∧ g.parseStart (stripCr line) = .panic := by
  have hhead := readsHead_start hfirst
  have hcount : (new g).headerBytesRead ≤ maxHeaderSize := Nat.zero_le _
  constructor
  · intro h
    by_cases hmem : (0x0a : UInt8) ∈ data
    · obtain ⟨line, rest, rfl, hline⟩ := List.eq_append_cons_of_mem hmem
      refine ⟨line, rest, rfl, hline, ?_⟩
      rw [run_headLine hhead rfl line hline hcount] at h
      change (if 0 + line.length + 1 ≤ maxHeaderSize then _ else _) = _ at h
      rw [Nat.zero_add] at h
      split at h
      · next hlimit =>
          refine ⟨hlimit, ?_⟩
          change (finishStart g _ (stripCr line)).bind _ = _ at h
          rw [finishStart] at h
          cases hstart : g.parseStart (stripCr line) with
          | ok start =>
            rw [hstart] at h
            refine absurd (Outcome.map_eq_panic.mp h) (run_ne_panic hg (ready_of_line ?_) ?_ rest)
            · exact .inl rfl
            · simp [PastStart]
          | error e =>
            rw [hstart] at h
            cases h
          | panic => rfl
      · cases h
    · rw [run_headPart hhead rfl hmem hcount] at h
      split at h <;> cases h
  · rintro ⟨line, rest, rfl, hline, hlimit, hpanic⟩
    rw [run_headLine hhead rfl line hline hcount, if_pos]
    · change (finishStart g _ (stripCr line)).bind _ = _
      rw [finishStart, hpanic]
      rfl
    · change 0 + line.length + 1 ≤ maxHeaderSize
      rwa [Nat.zero_add]

theorem feedPieces_new_eq_panic_iff (hg : Lawful g bodyReady)
    (hfirst : g.first = .requestLine ∨ g.first = .statusLine) (hnew : Ready g bodyReady (new g))
    (pieces : List Bytes) :
    ∃ answer, feedPieces (feed g) isComplete (new g) pieces = some answer ∧
      (answer = .panic ↔ ∃ line rest, pieces.flatten = line ++ 0x0a :: rest ∧
        (0x0a : UInt8) ∉ line ∧ line.length + 1 ≤ maxHeaderSize ∧
        g.parseStart (stripCr line) = .panic) := by
  refine ⟨_, feedPieces_eq hg hnew pieces, ?_⟩
  rw [Machine.feed, Outcome.map_eq_panic, run_new_eq_panic_iff hg hfirst]

end Totality

end MessageParser

/-! ## Version digits -/

theorem versionDigit_eq_panic_iff (text : Bytes) :
    versionDigit text = .panic ↔ text.length ≤ 7 := by
  rw [versionDigit]
  constructor
  · intro h
    by_contra hlen
    rw [Outcome.index_of_lt (by omega)] at h
    change (if text[7] ≠ 0x30 ∧ text[7] ≠ 0x31 then _ else _) = _ at h
    split at h
    · cases h
    · next hdigit =>
        rw [Outcome.sub_of_le] at h
        · cases h
        · have hcases : text[7] = 0x30 ∨ text[7] = 0x31 := by tauto
          rcases hcases with hd | hd <;> simp [hd]
  · intro hlen
    rw [Outcome.index, List.getElem?_eq_none hlen]
    rfl

/-! ## Requests -/

theorem eq_of_isPrefixOf_of_length_le {s t : Bytes} (h : s.isPrefixOf t = true)
    (hlen : t.length ≤ s.length) : t = s := by
  rw [ List.isPrefixOf_iff_prefix] at h
  exact (h.eq_of_length_le hlen).symm

/-- A request line makes the parser panic exactly if its version is `HTTP/1.` and nothing more. -/
theorem parseRequestLine_eq_panic_iff (line : Bytes) :
    parseRequestLine line = .panic ↔ validUtf8 line = true ∧ ∃ method uri,
      line = method ++ 0x20 :: (uri ++ 0x20 :: ascii "HTTP/1.") ∧
        (0x20 : UInt8) ∉ method ∧ (0x20 : UInt8) ∉ uri := by
  rw [parseRequestLine]
  constructor
  · intro h
    split at h
    next hutf =>
        refine ⟨hutf, ?_⟩
        split at h
        · cases h
        · cases h
        · cases h
        · next method uri version rest hparts =>
            obtain ⟨hline, hmethod, huri⟩ := splitN_three hparts
            split at h
            next hversion =>
                have hshort := (versionDigit_eq_panic_iff _).mp (Outcome.map_eq_panic.mp h)
                rw [eq_of_isPrefixOf_of_length_le hversion hshort] at hline
                exact ⟨method, uri, hline, hmethod, huri⟩
            next => cases h
    next => cases h
  · rintro ⟨hutf, method, uri, rfl, hmethod, huri⟩
    rw [if_pos hutf, splitN_three_append hmethod huri]
    rfl

/-- The input starts with a request line that ends right after `HTTP/1.`, where the version digit
should be. -/
def VersionCutShort (data : Bytes) : Prop :=
  ∃ method uri ending rest, data = method ++ 0x20 :: (uri ++ 0x20 :: ascii "HTTP/1.") ++
      (ending ++ rest) ∧
    (∀ b ∈ method ++ uri, b ≠ 0x20 ∧ b ≠ 0x0a) ∧
    (ending = ascii "\n" ∨ ending = ascii "\r\n") ∧
    validUtf8 (method ++ 0x20 :: (uri ++ 0x20 :: ascii "HTTP/1.")) = true ∧
    method.length + uri.length + 9 + ending.length ≤ maxHeaderSize

theorem requestLine_panics_iff (data : Bytes) :
    (∃ line rest, data = line ++ 0x0a :: rest ∧ (0x0a : UInt8) ∉ line ∧
      line.length + 1 ≤ maxHeaderSize ∧ parseRequestLine (stripCr line) = .panic) ↔
      VersionCutShort data := by
  constructor
  · rintro ⟨line, rest, rfl, hline, hlimit, hpanic⟩
    obtain ⟨hutf, method, uri, hcontent, hmethod, huri⟩ :=
      (parseRequestLine_eq_panic_iff _).mp hpanic
    have hfree : ∀ b ∈ method ++ uri, b ≠ 0x20 ∧ b ≠ 0x0a := by
      grind [stripCr_cases]
    have hlen : (stripCr line).length = method.length + uri.length + 9 := by
      rw [hcontent]
      simp [ascii]
      omega
    rcases stripCr_cases line with heq | heq
    · refine ⟨method, uri, ascii "\n", rest, ?_, hfree, .inl rfl, hcontent ▸ hutf, ?_⟩
      · rw [← hcontent, ← heq]
        rfl
      · rw [heq, hlen] at hlimit
        exact hlimit
    · refine ⟨method, uri, ascii "\r\n", rest, ?_, hfree, .inr rfl, hcontent ▸ hutf, ?_⟩
      · rw [← hcontent]
        nth_rewrite 1 [heq]
        simp [ascii]
      · rw [heq, List.length_append, hlen] at hlimit
        exact hlimit
  · rintro ⟨method, uri, ending, rest, rfl, hfree, hending, hutf, hlimit⟩
    have hmethod : (0x20 : UInt8) ∉ method := fun h => (hfree _ (List.mem_append_left _ h)).1 rfl
    have huri : (0x20 : UInt8) ∉ uri := fun h => (hfree _ (List.mem_append_right _ h)).1 rfl
    have hpanic := (parseRequestLine_eq_panic_iff _).mpr ⟨hutf, method, uri, rfl, hmethod, huri⟩
    generalize hcontent : method ++ 0x20 :: (uri ++ 0x20 :: ascii "HTTP/1.") = content at hpanic
    have hnewline : (0x0a : UInt8) ∉ content := by
      have hm : (0x0a : UInt8) ∉ method := fun h => (hfree _ (List.mem_append_left _ h)).2 rfl
      have hu : (0x0a : UInt8) ∉ uri := fun h => (hfree _ (List.mem_append_right _ h)).2 rfl
      rw [← hcontent]
      simp [hm, hu, ascii]
    have hlen : content.length = method.length + uri.length + 9 := by
      rw [← hcontent]
      simp [ascii]
      omega
    rcases hending with rfl | rfl
    · have hstrip : stripCr content = content := by
        have hdot : content = (method ++ 0x20 :: (uri ++ 0x20 :: ascii "HTTP/1")) ++ [0x2e] := by
          rw [← hcontent]
          simp [ascii]
        rw [hdot]
        exact stripCr_of_getLast (by decide)
      refine ⟨content, rest, rfl, hnewline, ?_, by rwa [hstrip]⟩
      rw [hlen]
      exact hlimit
    · refine ⟨content ++ [0x0d], rest, ?_, by simp [hnewline], ?_, by rwa [stripCr_concat]⟩
      · simp [ascii]
      · rw [List.length_append, hlen]
        exact hlimit

/-- However its bytes arrive, a request is answered, and the answer is a panic exactly if the
request line is cut short after `HTTP/1.`. -/
theorem request_parser_panics_iff (pieces : List Bytes) :
    ∃ answer,
      feedPieces RequestParser.feed MessageParser.isComplete RequestParser.new pieces =
        some answer ∧ (answer = .panic ↔ VersionCutShort pieces.flatten) := by
  obtain ⟨answer, hanswer, hpanic⟩ := MessageParser.feedPieces_new_eq_panic_iff
    RequestParser.lawful (.inl rfl) RequestParser.new_ready pieces
  exact ⟨answer, hanswer, hpanic.trans (requestLine_panics_iff _)⟩

theorem short_version_panics :
    RequestParser.feed RequestParser.new (ascii "GET / HTTP/1.\r\n") = some .panic := by
  decide +kernel

/-! ## Responses -/

/-- The input starts with a status line in which the offsets 9 and 12, between which the status
code is taken, are not both character boundaries. -/
def StatusCodeCut (data : Bytes) : Prop :=
  ∃ line rest, data = line ++ 0x0a :: rest ∧ (0x0a : UInt8) ∉ line ∧
    line.length + 1 ≤ maxHeaderSize ∧ validUtf8 (stripCr line) = true ∧
    12 ≤ (stripCr line).length ∧
    ((ascii "HTTP/1.0").isPrefixOf (stripCr line) = true ∨
      (ascii "HTTP/1.1").isPrefixOf (stripCr line) = true) ∧
    (isCharBoundary (stripCr line) 9 = false ∨ isCharBoundary (stripCr line) 12 = false)

theorem strSlice_eq_panic_iff {ε : Type} {s : Bytes} {i j : Nat} (hij : i ≤ j) :
    (strSlice s i j : Outcome ε Bytes) = .panic ↔
      isCharBoundary s i = false ∨ isCharBoundary s j = false := by
  rw [strSlice]
  grind

variable (b : UInt8) (rest : Bytes)

theorem versionDigit_append :
    versionDigit (ascii "HTTP/1." ++ b :: rest) =
      if b ≠ 0x30 ∧ b ≠ 0x31 then .error (.parse "unsupported HTTP version: HTTP/1." (latin1 b))
      else Outcome.sub b.toNat 0x30 := rfl

/-- The version of a line that starts with `HTTP/1.` and has an eighth byte. -/
theorem versionDigit_ok_iff :
    (∃ digit, versionDigit (ascii "HTTP/1." ++ b :: rest) = .ok digit) ↔ b = 0x30 ∨ b = 0x31 := by
  rw [versionDigit_append]
  constructor
  · grind
  · rintro (rfl | rfl)
    · exact ⟨0, rfl⟩
    · exact ⟨1, rfl⟩

theorem isPrefixOf_version (digit b : UInt8) (rest : Bytes) :
    (ascii "HTTP/1." ++ [digit]).isPrefixOf (ascii "HTTP/1." ++ b :: rest) = true ↔ b = digit := by
  rw [ List.isPrefixOf_iff_prefix, List.prefix_append_right_inj, List.cons_prefix_cons]
  simp [eq_comm]

theorem parseStatusLine_eq_panic_iff (line : Bytes) :
    parseStatusLine line = .panic ↔ validUtf8 line = true ∧ 12 ≤ line.length ∧
      ((ascii "HTTP/1.0").isPrefixOf line = true ∨ (ascii "HTTP/1.1").isPrefixOf line = true) ∧
      (isCharBoundary line 9 = false ∨ isCharBoundary line 12 = false) := by
  rw [parseStatusLine]
  by_cases hutf : validUtf8 line = true
  · rw [if_pos hutf]
    by_cases hlen : 12 ≤ line.length
    · by_cases hversion : (ascii "HTTP/1.").isPrefixOf line = true
      · rw [if_neg (by simp [hversion]; omega)]
        obtain ⟨tail, rfl⟩ := List.isPrefixOf_iff_prefix.mp hversion
        cases tail with
        | nil => simp [ascii] at hlen
        | cons b rest =>
          -- the slice is what can panic, once the version digit has been read
          have hdigit := versionDigit_ok_iff b rest
          rw [← isPrefixOf_version 0x30 b rest, ← isPrefixOf_version 0x31 b rest] at hdigit
          rw [← strSlice_eq_panic_iff (ε := HttpError) (by omega)]
          change (versionDigit _).bind (fun _ => (strSlice _ 9 12).bind _) = _ ↔ _
          rw [Outcome.bind_eq_panic, versionDigit_eq_panic_iff]
          constructor
          · rintro (hshort | ⟨digit, hok, hpanic⟩)
            · omega
            · refine ⟨hutf, hlen, hdigit.mp ⟨digit, hok⟩, ?_⟩
              rcases Outcome.bind_eq_panic.mp hpanic with h | ⟨code, -, hcode⟩
              · exact h
              · split at hcode <;> cases hcode
          · rintro ⟨-, -, hdigits, hpanic⟩
            obtain ⟨digit, hok⟩ := hdigit.mpr hdigits
            exact .inr ⟨digit, hok, by rw [hpanic]; rfl⟩
      · rw [if_pos (.inr (Bool.not_eq_true _ ▸ hversion))]
        have hlonger : ∀ digit : UInt8, (ascii "HTTP/1." ++ [digit]).isPrefixOf line ≠ true := by
          grind [List.prefix_append]
        constructor
        · nofun
        · rintro ⟨-, -, h | h, -⟩
          · exact absurd h (hlonger 0x30)
          · exact absurd h (hlonger 0x31)
    · rw [if_pos (.inl (by omega))]
      simp [hlen]
  · simp [hutf]

/-- However its bytes arrive, a response is answered, and the answer is a panic exactly if the
status code cuts a character. -/
theorem feedPieces_response_panics_iff (pieces : List Bytes) :
    ∃ answer,
      feedPieces ResponseParser.feed MessageParser.isComplete ResponseParser.new pieces =
        some answer ∧ (answer = .panic ↔ StatusCodeCut pieces.flatten) := by
  obtain ⟨answer, hanswer, hpanic⟩ := MessageParser.feedPieces_new_eq_panic_iff
    ResponseParser.lawful (.inr rfl) ResponseParser.new_ready pieces
  refine ⟨answer, hanswer, hpanic.trans ?_⟩
  simp only [ResponseParser.grammar, parseStatusLine_eq_panic_iff, StatusCodeCut]

end Starfish.Http.H1
