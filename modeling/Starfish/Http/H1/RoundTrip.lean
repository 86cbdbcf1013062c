import Starfish.Http.H1.Encoder
import Starfish.Http.H1.Lines

/-!
# Messages survive the wire

What the encoder writes, the parser reads: a message is parsed from its encoding, and exactly
its encoding is consumed, whatever follows. The head is read line by line (`run_headers`,
`run_head`); then the framing that the parser derives from the headers is the length of the body.
The one difference between a message and what is read back is the `Content-Length` header that
the encoder adds.
-/

namespace Starfish.Http.H1

open Quic (Bytes)
open Incremental

variable {S : Type}

/-! ## Bytes of the head -/

theorem isTokenByte_facts : ∀ b : UInt8, isTokenByte b = true →
    b < 0x80 ∧ b ≠ 0x3a ∧ b ≠ 0x0a ∧ b ≠ 0x0d ∧ b ≠ 0x20 ∧ isAsciiWhitespace b = false :=
  forall_byte (by decide +kernel)

theorem isVisibleByte_facts : ∀ b : UInt8, isVisibleByte b = true →
    b < 0x80 ∧ b ≠ 0x0a ∧ b ≠ 0x0d ∧ isValueByte b = true :=
  forall_byte (by decide +kernel)

theorem isDigit_facts : ∀ b : UInt8, isDigit b = true →
    isVisibleByte b = true ∧ b ≠ 0x2c ∧ isAsciiWhitespace b = false :=
  forall_byte (by decide +kernel)

/-- A header that is read back as it is written: a token, and visible text without white space
around it. -/
structure WireHeader (h : Bytes × Bytes) : Prop where
  name_ne : h.1 ≠ []
  token : ∀ b ∈ h.1, isTokenByte b = true
  visible : ∀ b ∈ h.2, isVisibleByte b = true
  trimmed : Trimmed h.2

def headerText (h : Bytes × Bytes) : Bytes := h.1 ++ 0x3a :: 0x20 :: h.2

namespace MessageParser

variable {g : Grammar S} {state : ParseState}
  {finish : MessageParser S → Bytes → Outcome HttpError (MessageParser S)}

variable {p : MessageParser S}

/-- A line that ends with `\r\n` and starts with an empty buffer. -/
theorem run_crlfLine (h : ReadsHead g state finish) (hp : p.state = state) (hbuf : p.buf = [])
    (line : Bytes) (hline : (0x0a : UInt8) ∉ line)
    (hcount : p.headerBytesRead + line.length + 2 ≤ maxHeaderSize) (rest : Bytes) :
    (machine g).run p (line ++ 0x0d :: 0x0a :: rest) =
      (finish (p.pushed (line ++ [0x0d, 0x0a])) line).bind fun q =>
        shift (line.length + 2) ((machine g).run q rest) := by
  have hrun := run_headLine h hp (line ++ [0x0d]) (by simp [hline]) (by omega) rest
  rw [List.append_assoc, List.singleton_append] at hrun
  rw [hrun, if_pos (by rw [List.length_append, List.length_singleton]; omega), hbuf,
    List.nil_append, stripCr_concat, List.length_append]
  simp

variable {h : Bytes × Bytes}

theorem headerText_newline (hw : WireHeader h) : (0x0a : UInt8) ∉ headerText h := by
  have hname : (0x0a : UInt8) ∉ h.1 := fun hb => (isTokenByte_facts _ (hw.token _ hb)).2.2.1 rfl
  have hvalue : (0x0a : UInt8) ∉ h.2 := fun hb => (isVisibleByte_facts _ (hw.visible _ hb)).2.1 rfl
  simp [headerText, hname, hvalue]

theorem finishHeader_text (hw : WireHeader h) :
    finishHeader g p (headerText h) = .ok { p with headers := p.headers ++ [h], buf := [] } := by
  have hascii : ∀ b ∈ headerText h, b < 0x80 := by
    grind [cases WireHeader, headerText, isTokenByte_facts, isVisibleByte_facts]
  have hcolon : (0x3a : UInt8) ∉ h.1 := fun hb => (isTokenByte_facts _ (hw.token _ hb)).2.1 rfl
  have hname : Trimmed h.1 := trimmed_of_ascii
    (fun b hb => (isTokenByte_facts b (hw.token b hb)).1)
    (fun b hb => (isTokenByte_facts b (hw.token b hb)).2.2.2.2.2)
  have hne : (headerText h).isEmpty = false := by simp [headerText]
  rw [finishHeader, hne, if_neg Bool.false_ne_true, parseHeader,
    if_pos (validUtf8_of_ascii hascii), headerText, splitOnce_append hcolon]
  simp only [trim_of_trimmed hname, trim_space_cons hw.trimmed]
  rfl

def headerLines (headers : List (Bytes × Bytes)) : Bytes :=
  headers.flatMap fun h => headerText h ++ [0x0d, 0x0a]

@[simp] theorem headerLines_nil : headerLines [] = [] := rfl

@[simp] theorem headerLines_cons (h : Bytes × Bytes) (rest : List (Bytes × Bytes)) :
    headerLines (h :: rest) = headerText h ++ [0x0d, 0x0a] ++ headerLines rest := rfl

theorem headerLines_append (front back : List (Bytes × Bytes)) :
    headerLines (front ++ back) = headerLines front ++ headerLines back :=
  List.flatMap_append

theorem length_headerLines_cons (h : Bytes × Bytes) (rest : List (Bytes × Bytes)) :
    (headerLines (h :: rest)).length =
      (headerText h).length + 2 + (headerLines rest).length := by
  grind [headerLines_cons]

def withHeaders (p : MessageParser S) (headers : List (Bytes × Bytes)) (size : Nat) :
    MessageParser S :=
  { p with headers := p.headers ++ headers, headerBytesRead := p.headerBytesRead + size }

theorem withHeaders_withHeaders (p : MessageParser S) (hs ts : List (Bytes × Bytes)) (m n : Nat) :
    (p.withHeaders hs m).withHeaders ts n = p.withHeaders (hs ++ ts) (m + n) := by
  simp [withHeaders, Nat.add_assoc]

theorem run_headerText (hw : WireHeader h) (hp : p.state = .headerLine)
    (hbuf : p.buf = []) (hcount : p.headerBytesRead + (headerText h).length + 2 ≤ maxHeaderSize)
    (rest : Bytes) : (machine g).run p (headerText h ++ 0x0d :: 0x0a :: rest) =
      shift ((headerText h).length + 2)
        ((machine g).run (p.withHeaders [h] ((headerText h).length + 2)) rest) := by
  rw [run_crlfLine (readsHead_header g) hp hbuf _ (headerText_newline hw) hcount,
    finishHeader_text hw, Outcome.bind]
  simp [withHeaders, pushed, hbuf]

theorem run_headers {headers : List (Bytes × Bytes)} (hw : ∀ h ∈ headers, WireHeader h)
    (hp : p.state = .headerLine) (hbuf : p.buf = [])
    (hcount : p.headerBytesRead + (headerLines headers).length ≤ maxHeaderSize) (rest : Bytes) :
    (machine g).run p (headerLines headers ++ rest) =
      shift (headerLines headers).length
        ((machine g).run (p.withHeaders headers (headerLines headers).length) rest) := by
  induction headers generalizing p with
  | nil => simp [withHeaders]
  | cons h tail ih =>
    rw [List.forall_mem_cons] at hw
    rw [length_headerLines_cons] at hcount ⊢
    have hsplit : headerLines (h :: tail) ++ rest =
        headerText h ++ 0x0d :: 0x0a :: (headerLines tail ++ rest) := by simp
    rw [hsplit, run_headerText hw.1 hp hbuf (by omega),
      ih hw.2 (p := p.withHeaders [h] _) hp hbuf (by simp only [withHeaders]; omega),
      withHeaders_withHeaders, shift_shift]
    rfl

theorem run_emptyLine (hp : p.state = .headerLine) (hbuf : p.buf = [])
    (hcount : p.headerBytesRead + 2 ≤ maxHeaderSize) (rest : Bytes) :
    (machine g).run p (0x0d :: 0x0a :: rest) =
      (Outcome.ofExcept (g.determineBodyKind (p.withHeaders [] 2))).bind fun q =>
        shift 2 ((machine g).run q rest) := by
  have hline := run_crlfLine (readsHead_header g) hp hbuf [] (by simp) hcount rest
  rw [List.nil_append] at hline
  rw [hline, finishHeader, List.isEmpty_nil, if_pos rfl]
  simp [withHeaders, pushed, hbuf]

def afterStart (g : Grammar S) (parsed : S) (size : Nat) : MessageParser S :=
  { new g with state := .headerLine, start := parsed, headerBytesRead := size }

theorem run_startLine (hfirst : g.first = .requestLine ∨ g.first = .statusLine) {start : Bytes}
    (hstart : (0x0a : UInt8) ∉ start) {parsed : S} (hparsed : g.parseStart start = .ok parsed)
    (hsize : start.length + 2 ≤ maxHeaderSize) (rest : Bytes) :
    (machine g).run (new g) (start ++ 0x0d :: 0x0a :: rest) =
      shift (start.length + 2) ((machine g).run (afterStart g parsed (start.length + 2)) rest) := by
  rw [run_crlfLine (readsHead_start hfirst) rfl rfl _ hstart (by simp only [new]; omega),
    finishStart, hparsed]
  simp [Outcome.map, Outcome.bind, afterStart, new, pushed]

def headSize (start : Bytes) (headers : List (Bytes × Bytes)) : Nat :=
  start.length + 2 + (headerLines headers).length + 2

theorem run_head (hfirst : g.first = .requestLine ∨ g.first = .statusLine) {start : Bytes}
    (hstart : (0x0a : UInt8) ∉ start) {parsed : S} (hparsed : g.parseStart start = .ok parsed)
    {headers : List (Bytes × Bytes)} (hw : ∀ h ∈ headers, WireHeader h)
    (hsize : headSize start headers ≤ maxHeaderSize) (rest : Bytes) :
    (machine g).run (new g)
        (start ++ 0x0d :: 0x0a :: (headerLines headers ++ 0x0d :: 0x0a :: rest)) =
      (Outcome.ofExcept (g.determineBodyKind { afterStart g parsed (headSize start headers) with
          headers := headers })).bind fun q =>
        shift (headSize start headers) ((machine g).run q rest) := by
  rw [headSize] at hsize ⊢
  have hend : ((afterStart g parsed (start.length + 2)).withHeaders headers
      (headerLines headers).length).withHeaders [] 2 = { afterStart g parsed (start.length + 2 +
        (headerLines headers).length + 2) with headers := headers } := by
    simp [withHeaders, afterStart, new]
  rw [run_startLine hfirst hstart hparsed (by omega),
    run_headers hw rfl rfl (by simp only [afterStart]; omega),
    run_emptyLine rfl rfl (by simp only [withHeaders, afterStart]; omega), hend]
  cases g.determineBodyKind _ with
  | ok q => simp [Outcome.ofExcept, Outcome.bind, Nat.add_assoc]
  | error e => rfl

theorem run_fixedBody {bodyReady : MessageParser S → Prop} (hg : Lawful g bodyReady)
    (hp : Ready g bodyReady p) (hstate : p.state = .body)
    (hread : ∀ data, g.readBody p data = p.readFixed data) {body : Bytes} (hne : body ≠ [])
    (hlen : p.bodyRemaining = body.length) (rest : Bytes) :
    (machine g).run p (body ++ rest) = .ok (body.length, { p with
      state := .complete, body := p.body ++ body, bodyRemaining := 0 }) := by
  have hopen : (machine g).done p = false := by simp [machine, isComplete, hstate]
  have hdata : body ++ rest ≠ [] := by simp [hne]
  have hmin : min body.length (body ++ rest).length = body.length := by simp
  rw [(parseBlock_advances hg p _ hp hopen hdata).agrees, parseBlock, hstate]
  simp only [hread, readFixed_eq, hlen, hmin, Nat.sub_self, followed_ok]
  rw [Machine.run_of_done _ rfl]
  simp

end MessageParser

/-! ## Framing -/

theorem hasFinalChunked_of_none {headers : List (Bytes × Bytes)}
    (h : ∀ e ∈ headers, eqIgnoreAsciiCase e.1 transferEncoding = false) :
    hasFinalChunkedTransferCoding headers = false := by
  have hfilter : headers.filter (fun e => eqIgnoreAsciiCase e.1 (ascii "transfer-encoding")) = [] := by
    rw [List.filter_eq_nil_iff]
    intro e he
    rw [Bool.not_eq_true]
    exact h e he
  rw [hasFinalChunkedTransferCoding, transferCodings, hfilter]
  rfl

theorem plus_or_digit : ∀ b : UInt8, b = 0x2b ∨ isDigit b = true →
    b ≠ 0x2c ∧ b < 0x80 ∧ isAsciiWhitespace b = false :=
  forall_byte (by decide +kernel)

theorem parseU64_bytes {value : Bytes} {n : Nat} (h : parseU64 value = some n) :
    ∀ b ∈ value, b = 0x2b ∨ isDigit b = true := by
  obtain ⟨digits, -, hvalue, hdigits⟩ := parseUnsigned_eq_some h
  have hd : ∀ b ∈ digits, isDigit b = true := fun b hb => by
    rw [← digitValue_ten_isSome]
    exact hdigits b hb
  grind

theorem parseLengthValues_of_eq {n : Nat} {values : List Bytes}
    (h : ∀ v ∈ values, parseU64 v = some n) {parsed : Option Nat}
    (hparsed : parsed = none ∨ parsed = some n) :
    parseLengthValues parsed values = .ok (if values = [] then parsed else some n) := by
  induction values generalizing parsed with
  | nil => rfl
  | cons value rest ih =>
    rw [List.forall_mem_cons] at h
    have hbytes := parseU64_bytes h.1
    have hcomma : (0x2c : UInt8) ∉ value := fun hb => (plus_or_digit _ (hbytes _ hb)).1 rfl
    have htrim : trim value = value := trim_of_trimmed (trimmed_of_ascii
      (fun b hb => (plus_or_digit b (hbytes b hb)).2.1)
      (fun b hb => (plus_or_digit b (hbytes b hb)).2.2))
    have hone : parseLengths value parsed [value] = .ok (some n) := by
      grind [parseLengths]
    rw [parseLengthValues, splitOn_of_notMem hcomma, hone]
    grind

/-! ## Messages -/

/-- Headers and a body that can be sent with a `Content-Length`: no `Transfer-Encoding`, a length,
if there is one, that is that of the body, and values of visible ASCII without white space
around them. -/
structure Sendable (headers : HeaderMap) (body : Bytes) : Prop where
  names : ∀ e ∈ headers.entries, IsHeaderName e.1
  visible : ∀ e ∈ headers.entries, ∀ b ∈ e.2, isVisibleByte b = true
  trimmed : ∀ e ∈ headers.entries, Trimmed e.2
  unencoded : hasTransferEncoding headers = false
  length : ∀ e ∈ headers.entries, e.1 = contentLength → parseU64 e.2 = some body.length
  fits : body.length ≤ usizeMax

def lengthHeader (body : Bytes) : Bytes × Bytes := (ascii "Content-Length", decimal body.length)

def wireHeaders (headers : HeaderMap) (adds : Bool) (body : Bytes) : List (Bytes × Bytes) :=
  headers.entries ++ if adds then [lengthHeader body] else []

def receivedHeaders (headers : HeaderMap) (adds : Bool) (body : Bytes) : HeaderMap :=
  if adds then headers.append contentLength (decimal body.length) else headers

theorem headerName_facts {name : Bytes} (h : IsHeaderName name) :
    name ≠ [] ∧ (∀ b ∈ name, isTokenByte b = true) ∧ name.map toLower = name := by
  grind [IsHeaderName, headerName]

theorem decimal_trimmed (n : Nat) : Trimmed (decimal n) :=
  trimmed_of_ascii
    (fun b hb => (isVisibleByte_facts b (isDigit_facts b (isDigit_of_mem_decimal hb)).1).1)
    (fun b hb => (isDigit_facts b (isDigit_of_mem_decimal hb)).2.2)

theorem lengthHeader_wire (body : Bytes) : WireHeader (lengthHeader body) where
  name_ne := by simp [lengthHeader, ascii]
  token := by
    change ∀ b ∈ ascii "Content-Length", isTokenByte b = true
    decide +kernel
  visible b hb := (isDigit_facts b (isDigit_of_mem_decimal hb)).1
  trimmed := decimal_trimmed _

namespace Sendable

variable {headers : HeaderMap} {body : Bytes}

theorem wire (h : Sendable headers body) (adds : Bool) :
    ∀ e ∈ wireHeaders headers adds body, WireHeader e := by
  intro e he
  rcases List.mem_append.mp he with he | he
  · have hname := headerName_facts (h.names e he)
    exact ⟨hname.1, hname.2.1, h.visible e he, h.trimmed e he⟩
  · grind [lengthHeader_wire]

theorem encodeHeaders_eq (h : Sendable headers body) :
    encodeHeaders headers = MessageParser.headerLines headers.entries := by
  have hall : headers.entries.filter (fun e => !(hasTransferEncoding headers &&
      e.1 == contentLength)) = headers.entries := by
    simp [h.unencoded]
  rw [encodeHeaders, hall, MessageParser.headerLines]
  refine List.flatMap_congr fun e he => ?_
  have hvisible : e.2.all isVisibleByte = true := List.all_eq_true.mpr (h.visible e he)
  rw [encodeHeader, toStr, if_pos hvisible]
  simp [headerText, ascii]

theorem encode_wireHeaders (h : Sendable headers body) (adds : Bool) :
    encodeHeaders headers ++ (if adds then addedLength body else []) =
      MessageParser.headerLines (wireHeaders headers adds body) := by
  rw [h.encodeHeaders_eq, wireHeaders]
  cases adds with
  | true => simp [MessageParser.headerLines, addedLength, headerText, lengthHeader, ascii]
  | false => simp

theorem notEncoded (h : Sendable headers body) (adds : Bool) :
    ∀ e ∈ wireHeaders headers adds body, eqIgnoreAsciiCase e.1 transferEncoding = false := by
  intro e he
  rcases List.mem_append.mp he with he | he
  · rw [← Bool.not_eq_true]
    intro heq
    have hname : e.1 = transferEncoding := by
      have hmap := (headerName_facts (h.names e he)).2.2
      rw [eqIgnoreAsciiCase, beq_iff_eq, hmap] at heq
      exact heq
    have hkey := (headers.containsKey_iff transferEncoding).mpr ⟨e, he, hname⟩
    grind [cases Sendable, hasTransferEncoding]
  · cases adds with
    | true =>
      rw [List.mem_singleton.mp he]
      change eqIgnoreAsciiCase (ascii "Content-Length") transferEncoding = false
      decide
    | false => cases he

theorem lengths (h : Sendable headers body) (adds : Bool) :
    ∀ v ∈ contentLengthValues (wireHeaders headers adds body), parseU64 v = some body.length := by
  intro v hv
  obtain ⟨e, he, rfl⟩ := List.mem_map.mp hv
  obtain ⟨hmem, heq⟩ := List.mem_filter.mp he
  rcases List.mem_append.mp hmem with hmem | hmem
  · refine h.length e hmem ?_
    rw [eqIgnoreAsciiCase, beq_iff_eq, (headerName_facts (h.names e hmem)).2.2] at heq
    exact heq
  · cases adds with
    | true =>
      rw [List.mem_singleton.mp hmem]
      exact parseUnsigned_decimal h.fits
    | false => cases hmem

theorem parseContentLength_eq (h : Sendable headers body) (adds : Bool) :
    parseContentLength (wireHeaders headers adds body) =
      .ok (if contentLengthValues (wireHeaders headers adds body) = [] then none
        else some body.length) :=
  parseLengthValues_of_eq (h.lengths adds) (.inl rfl)

theorem lengths_eq_nil_iff (headers : HeaderMap) (body : Bytes)
    (hnames : ∀ e ∈ headers.entries, IsHeaderName e.1) (adds : Bool) :
    contentLengthValues (wireHeaders headers adds body) = [] ↔
      adds = false ∧ headers.containsKey contentLength = false := by
  rw [contentLengthValues, List.map_eq_nil_iff, List.filter_eq_nil_iff]
  constructor
  · intro h
    refine ⟨?_, ?_⟩
    · cases adds with
      | true =>
        refine absurd ?_ (h (lengthHeader body) (List.mem_append_right _ (by simp)))
        change eqIgnoreAsciiCase (ascii "Content-Length") (ascii "content-length") = true
        decide
      | false => rfl
    · rw [← Bool.not_eq_true, headers.containsKey_iff]
      rintro ⟨e, he, hname⟩
      refine h e (List.mem_append_left _ he) ?_
      rw [hname]
      exact eqIgnoreAsciiCase_refl _
  · rintro ⟨rfl, hkey⟩ e he heq
    rcases List.mem_append.mp he with he | he
    · rw [← Bool.not_eq_true, headers.containsKey_iff] at hkey
      rw [eqIgnoreAsciiCase, beq_iff_eq, (headerName_facts (hnames e he)).2.2] at heq
      exact hkey ⟨e, he, heq⟩
    · cases he

theorem buildHeaders_eq (h : Sendable headers body) (what : String) (adds : Bool) :
    buildHeaders what .empty (wireHeaders headers adds body) =
      .ok (receivedHeaders headers adds body) := by
  have hvalid : ∀ e ∈ wireHeaders headers adds body,
      headerName e.1 = some (e.1.map toLower) ∧ headerValue e.2 = some e.2 := by
    intro e he
    refine ⟨?_, if_pos (List.all_eq_true.mpr fun b hb =>
      (isVisibleByte_facts b ((h.wire adds e he).visible b hb)).2.2.2)⟩
    rcases List.mem_append.mp he with he | he
    · rw [h.names e he, (headerName_facts (h.names e he)).2.2]
    · cases adds with
      | true =>
        rw [List.mem_singleton.mp he]
        change headerName (ascii "Content-Length") = some ((ascii "Content-Length").map toLower)
        decide
      | false => cases he
  have hentries : headers.entries.map (fun e => (e.1.map toLower, e.2)) = headers.entries := by
    conv => rhs; rw [← List.map_id headers.entries]
    refine List.map_congr_left fun e he => ?_
    rw [(headerName_facts (h.names e he)).2.2]
    rfl
  rw [buildHeaders_ok what hvalid, wireHeaders, List.map_append, hentries]
  rw [HeaderMap.appendAll, List.foldl_append]
  change Except.ok (HeaderMap.appendAll (HeaderMap.empty.appendAll headers.entries) _) = _
  rw [HeaderMap.appendAll_entries, receivedHeaders]
  cases adds with
  | true => rfl
  | false => rfl

end Sendable

structure Parsed (p : MessageParser S) (start : S) (headers : List (Bytes × Bytes))
    (body : Bytes) : Prop where
  complete : p.state = .complete
  start_eq : p.start = start
  headers_eq : p.headers = headers
  body_eq : p.body = body

open MessageParser

def bodyless (p : MessageParser S) : MessageParser S :=
  { p with bodyKind := .none, state := .complete }

def withLength (p : MessageParser S) (len : Nat) : MessageParser S :=
  { p with bodyKind := .contentLength len, bodyRemaining := len, state := .body }

theorem Sendable.frameByHeaders_eq {headers : HeaderMap} {body : Bytes}
    (h : Sendable headers body) (adds : Bool)
    (hvalues : contentLengthValues (wireHeaders headers adds body) ≠ []) {p : MessageParser S}
    (hp : p.headers = wireHeaders headers adds body) (otherwise : MessageParser S) :
    p.frameByHeaders otherwise =
      .ok (if body = [] then bodyless p else withLength p body.length) := by
  rw [frameByHeaders, hp, hasFinalChunked_of_none (h.notEncoded adds), if_neg Bool.false_ne_true,
    h.parseContentLength_eq adds, if_neg hvalues]
  by_cases hbody : body = []
  all_goals grind [bodyless, withLength]

section Message

variable {g : Grammar S} {bodyReady : MessageParser S → Prop} {start : Bytes} {parsed : S}
  {headers : HeaderMap} {body : Bytes} {adds : Bool}

theorem run_body (hg : Lawful g bodyReady)
    (hread : ∀ p data, FixedReady p → g.readBody p data = p.readFixed data)
    (hready : ∀ p, FixedReady p → bodyReady p) (p : MessageParser S) (hp : p.body = [])
    (body rest : Bytes) :
    ∃ q, (machine g).run (if body = [] then bodyless p else withLength p body.length)
        (body ++ rest) = .ok (body.length, q) ∧ Parsed q p.start p.headers body := by
  by_cases hbody : body = []
  · subst hbody
    exact ⟨bodyless p, Machine.run_of_done _ rfl _, rfl, rfl, rfl, hp⟩
  · have hfix : FixedReady (withLength p body.length) :=
      ⟨List.length_pos_of_ne_nil hbody, body.length, rfl⟩
    rw [if_neg hbody]
    refine ⟨_, run_fixedBody hg (ready_of_body rfl (hready _ hfix)) rfl
      (fun data => hread _ data hfix) hbody rfl rest, rfl, rfl, rfl, ?_⟩
    simp [withLength, hp]

/-- A message is read from its head and its body, whatever follows, if what its head says of the
body is right. -/
theorem run_message (hg : Lawful g bodyReady)
    (hread : ∀ p data, FixedReady p → g.readBody p data = p.readFixed data)
    (hready : ∀ p, FixedReady p → bodyReady p)
    (hfirst : g.first = .requestLine ∨ g.first = .statusLine)
    (hstart : (0x0a : UInt8) ∉ start) (hparsed : g.parseStart start = .ok parsed)
    (h : Sendable headers body)
    (hsize : headSize start (wireHeaders headers adds body) ≤ maxHeaderSize)
    (hdet : ∀ p : MessageParser S, p.start = parsed → p.headers = wireHeaders headers adds body →
      g.determineBodyKind p = .ok (if body = [] then bodyless p else withLength p body.length))
    (rest : Bytes) :
    ∃ q, (machine g).run (new g) (start ++ 0x0d :: 0x0a ::
          (headerLines (wireHeaders headers adds body) ++ 0x0d :: 0x0a :: (body ++ rest))) =
        .ok (headSize start (wireHeaders headers adds body) + body.length, q) ∧
      Parsed q parsed (wireHeaders headers adds body) body := by
  rw [run_head hfirst hstart hparsed (h.wire adds) hsize, hdet _ rfl rfl]
  obtain ⟨q, hrun, hq⟩ := run_body hg hread hready { afterStart g parsed
    (headSize start (wireHeaders headers adds body)) with
    headers := wireHeaders headers adds body } rfl body rest
  refine ⟨q, ?_, hq⟩
  change shift _ ((machine g).run _ _) = _
  rw [hrun, shift_ok]

end Message

/-! ## Requests -/

/-- The URIs of the `http` crate, as the texts they are displayed as. -/
structure UriSyntax where
  parse : Bytes → Except Bytes Bytes
  printable : ∀ text uri, parse text = .ok uri → ∀ b ∈ uri, 0x20 < b
  utf8 : ∀ text uri, parse text = .ok uri → validUtf8 uri = true

/-- A request that can be sent with a `Content-Length` and whose head is within the limit. -/
structure SendableRequest (uris : UriSyntax) (req : Request) : Prop where
  method : isMethod req.method = true
  target : uris.parse req.target = .ok req.target
  message : Sendable req.headers req.body
  head : (encodeRequestHead req).length ≤ maxHeaderSize

def receivedRequest (req : Request) : Request :=
  { req with
    version := .http11
    headers := receivedHeaders req.headers (addsLengthToRequest req) req.body }

def requestText (req : Request) : Bytes :=
  req.method ++ 0x20 :: (req.target ++ 0x20 :: ascii "HTTP/1.1")

theorem encodeRequestHead_eq {req : Request} (h : Sendable req.headers req.body) (rest : Bytes) :
    encodeRequestHead req ++ rest = requestText req ++ 0x0d :: 0x0a ::
      (headerLines (wireHeaders req.headers (addsLengthToRequest req) req.body) ++
        0x0d :: 0x0a :: rest) := by
  rw [encodeRequestHead, ← h.encode_wireHeaders]
  simp [requestText, ascii]

theorem isMethod_token {method : Bytes} (h : isMethod method = true) :
    ∀ b ∈ method, isTokenByte b = true := by
  rw [isMethod, Bool.and_eq_true] at h
  exact List.all_eq_true.mp h.2

section Requests

variable {uris : UriSyntax} {req : Request}

variable (h : SendableRequest uris req)

include h in
theorem SendableRequest.requestText_newline : (0x0a : UInt8) ∉ requestText req := by
  have hmethod : (0x0a : UInt8) ∉ req.method := fun hb =>
    (isTokenByte_facts _ (isMethod_token h.method _ hb)).2.2.1 rfl
  have htarget : (0x0a : UInt8) ∉ req.target := fun hb =>
    absurd (uris.printable _ _ h.target _ hb) (by decide)
  simp [requestText, hmethod, htarget, ascii]

include h in
theorem SendableRequest.parseRequestLine_eq :
    parseRequestLine (requestText req) = .ok ⟨some req.method, some req.target, some 1⟩ := by
  have hmethod : (0x20 : UInt8) ∉ req.method := fun hb =>
    (isTokenByte_facts _ (isMethod_token h.method _ hb)).2.2.2.2.1 rfl
  have htarget : (0x20 : UInt8) ∉ req.target := fun hb =>
    absurd (uris.printable _ _ h.target _ hb) (by decide)
  have hutf : validUtf8 (requestText req) = true := by
    rw [requestText, validUtf8_append (validUtf8_of_ascii fun b hb =>
      (isTokenByte_facts b (isMethod_token h.method b hb)).1), validUtf8_cons (by decide),
      validUtf8_append (uris.utf8 _ _ h.target)]
    decide
  rw [parseRequestLine, if_pos hutf, requestText, splitN_three_append hmethod htarget]
  rfl

include h in
theorem SendableRequest.determineBodyKind_eq (p : RequestParser)
    (hp : p.headers = wireHeaders req.headers (addsLengthToRequest req) req.body) :
    RequestParser.grammar.determineBodyKind p =
      .ok (if req.body = [] then bodyless p else withLength p req.body.length) := by
  by_cases hvalues :
      contentLengthValues (wireHeaders req.headers (addsLengthToRequest req) req.body) = []
  · -- no length at all: then nothing was added because the body is empty
    obtain ⟨hadds, hkey⟩ :=
      (Sendable.lengths_eq_nil_iff _ _ h.message.names _).mp hvalues
    have hbody : req.body = [] := by
      simpa [addsLengthToRequest, h.message.unencoded, hkey] using hadds
    change p.frameByHeaders _ = _
    rw [if_pos hbody, frameByHeaders, hp, hasFinalChunked_of_none (h.message.notEncoded _),
      if_neg Bool.false_ne_true, h.message.parseContentLength_eq, if_pos hvalues]
    simp only [bodyless, hp]
  · exact h.message.frameByHeaders_eq _ hvalues hp _

include h in
theorem SendableRequest.head_size : (encodeRequestHead req).length =
      headSize (requestText req) (wireHeaders req.headers (addsLengthToRequest req) req.body) := by
  have hhead := encodeRequestHead_eq h.message []
  grind [headSize]

include h in
theorem SendableRequest.run (rest : Bytes) :
    ∃ q, (machine RequestParser.grammar).run RequestParser.new (encodeRequest req ++ rest) =
        .ok ((encodeRequest req).length, q) ∧
      Parsed q ⟨some req.method, some req.target, some 1⟩
        (wireHeaders req.headers (addsLengthToRequest req) req.body) req.body := by
  obtain ⟨q, hrun, hq⟩ := run_message RequestParser.lawful (fun _ _ _ => rfl) (fun _ hp => hp)
    (.inl rfl) h.requestText_newline h.parseRequestLine_eq h.message (h.head_size ▸ h.head)
    (fun p _ hp => h.determineBodyKind_eq p hp) rest
  refine ⟨q, ?_, hq⟩
  rw [encodeRequest, List.append_assoc, encodeRequestHead_eq h.message, List.length_append,
    h.head_size]
  exact hrun

include h in
theorem SendableRequest.takeRequest_eq {q : RequestParser}
    (hq : Parsed q ⟨some req.method, some req.target, some 1⟩
      (wireHeaders req.headers (addsLengthToRequest req) req.body) req.body) :
    q.takeRequest uris.parse = .ok (receivedRequest req) := by
  rw [RequestParser.takeRequest, hq.start_eq]
  simp only [h.method, h.target, hq.headers_eq, h.message.buildHeaders_eq,
    hq.body_eq]
  rfl

end Requests

/-! ## Responses -/

/-- A response that can be sent with a `Content-Length`, whose head is within the limit, and that
has a body only if its status allows one. -/
structure SendableResponse (table : ReasonTable) (resp : Response) : Prop where
  status : 100 ≤ resp.status ∧ resp.status < 1000
  message : Sendable resp.headers resp.body
  allowed : ResponseParser.statusWithoutBody resp.status = true → resp.body = []
  head : (encodeResponseHead table resp).length ≤ maxHeaderSize

def receivedResponse (resp : Response) : Response :=
  { resp with
    version := .http11
    headers := receivedHeaders resp.headers (addsLengthToResponse resp) resp.body }

def reasonText (table : ReasonTable) (status : Nat) : Bytes :=
  (table.reason status).getD (ascii "Unknown")

def statusText (table : ReasonTable) (resp : Response) : Bytes :=
  ascii "HTTP/1.1 " ++ (decimal resp.status ++ 0x20 :: reasonText table resp.status)

theorem encodeResponseHead_eq (table : ReasonTable) {resp : Response}
    (h : Sendable resp.headers resp.body) (rest : Bytes) :
    encodeResponseHead table resp ++ rest = statusText table resp ++ 0x0d :: 0x0a ::
      (headerLines (wireHeaders resp.headers (addsLengthToResponse resp) resp.body) ++
        0x0d :: 0x0a :: rest) := by
  rw [encodeResponseHead, ← h.encode_wireHeaders]
  simp [statusText, reasonText, ascii]

theorem reasonText_visible (table : ReasonTable) (status : Nat) :
    ∀ b ∈ reasonText table status, isVisibleByte b = true := by
  rw [reasonText]
  cases h : table.reason status with
  | none =>
    simp [ascii, isVisibleByte]
  | some text => exact List.all_eq_true.mp (table.visible status text h)

theorem decimal_status {status : Nat} (h : 100 ≤ status ∧ status < 1000) :
    ∃ a b c, decimal status = [a, b, c] ∧ isDigit a = true := by
  have hlen : (decimal status).length = 3 := by
    rw [decimal, if_neg (by omega), List.length_map, List.length_reverse,
      Nat.length_digits 10 status (by decide) (by omega),
      Nat.log_eq_of_pow_le_of_lt_pow (m := 2) (by omega) (by omega)]
  obtain ⟨a, b, c, habc⟩ := List.length_eq_three.mp hlen
  grind [isDigit_of_mem_decimal]

theorem isDigit_not_continuation : ∀ b : UInt8, isDigit b = true → isContinuation b = false :=
  forall_byte (by decide +kernel)

section Responses

variable {table : ReasonTable} {resp : Response}

theorem statusText_visible : ∀ b ∈ statusText table resp, isVisibleByte b = true := by
  intro b hb
  simp only [statusText, List.mem_append, List.mem_cons] at hb
  rcases hb with hb | hb | rfl | hb
  · revert b
    decide +kernel
  · exact (isDigit_facts b (isDigit_of_mem_decimal hb)).1
  · decide
  · exact reasonText_visible table _ b hb

theorem SendableResponse.parseStatusLine_eq (h : SendableResponse table resp) :
    parseStatusLine (statusText table resp) = .ok ⟨some resp.status, some 1⟩ := by
  have hutf : validUtf8 (statusText table resp) = true := validUtf8_of_ascii fun b hb =>
    (isVisibleByte_facts b (statusText_visible b hb)).1
  have hcode : parseU16 (decimal resp.status) = some resp.status :=
    parseUnsigned_decimal (by have := h.status.2; omega)
  obtain ⟨a, b, c, hdigits, ha⟩ := decimal_status h.status
  have hslice : strSlice (ε := HttpError) (statusText table resp) 9 12 =
      .ok (decimal resp.status) := by
    rw [strSlice, if_pos, statusText, hdigits]
    · rfl
    · refine ⟨by omega, ?_, ?_⟩
      · rw [statusText, hdigits]
        change (!isContinuation a) = true
        rw [isDigit_not_continuation a ha]
        rfl
      · rw [statusText, hdigits]
        rfl
  have hversion : versionDigit (statusText table resp) = .ok 1 := rfl
  rw [parseStatusLine, if_pos hutf, if_neg, hversion, Outcome.ok_bind, hslice, Outcome.ok_bind,
    hcode]
  rw [statusText, hdigits]
  simp [ascii]

theorem SendableResponse.determineBodyKind_eq (h : SendableResponse table resp)
    (p : ResponseParser) (hstart : p.start = ⟨some resp.status, some 1⟩)
    (hp : p.headers = wireHeaders resp.headers (addsLengthToResponse resp) resp.body) :
    ResponseParser.grammar.determineBodyKind p =
      .ok (if resp.body = [] then bodyless p else withLength p resp.body.length) := by
  change ResponseParser.determineBodyKind p = _
  rw [ResponseParser.determineBodyKind, hstart]
  split
  · next hnone => rw [if_pos (h.allowed hnone), bodyless, hstart]
  · refine h.message.frameByHeaders_eq _ (fun hnil => ?_) hp _
    obtain ⟨hadds, hkey⟩ := (Sendable.lengths_eq_nil_iff _ _ h.message.names _).mp hnil
    simp [addsLengthToResponse, h.message.unencoded, hkey] at hadds

theorem SendableResponse.run (h : SendableResponse table resp) (rest : Bytes) :
    ∃ q, (machine ResponseParser.grammar).run ResponseParser.new
          (encodeResponse table resp ++ rest) = .ok ((encodeResponse table resp).length, q) ∧
      Parsed q ⟨some resp.status, some 1⟩
        (wireHeaders resp.headers (addsLengthToResponse resp) resp.body) resp.body := by
  have hhead := encodeResponseHead_eq table h.message []
  rw [List.append_nil] at hhead
  have hsize : (encodeResponseHead table resp).length = headSize (statusText table resp)
      (wireHeaders resp.headers (addsLengthToResponse resp) resp.body) := by
    rw [hhead, headSize]
    simp only [List.length_append, List.length_cons, List.length_nil]
    omega
  have hline : (0x0a : UInt8) ∉ statusText table resp := fun hb =>
    (isVisibleByte_facts _ (statusText_visible _ hb)).2.1 rfl
  obtain ⟨q, hrun, hq⟩ := run_message ResponseParser.lawful ResponseParser.readBody_of_fixed
    (fun _ hp => .inl hp) (.inr rfl) hline h.parseStatusLine_eq h.message (hsize ▸ h.head)
    (fun p hstart hp => h.determineBodyKind_eq p hstart hp) rest
  refine ⟨q, ?_, hq⟩
  rw [encodeResponse, List.append_assoc, encodeResponseHead_eq table h.message, List.length_append,
    hsize]
  exact hrun

theorem SendableResponse.takeResponse_eq (h : SendableResponse table resp) {q : ResponseParser}
    (hq : Parsed q ⟨some resp.status, some 1⟩
      (wireHeaders resp.headers (addsLengthToResponse resp) resp.body) resp.body) :
    q.takeResponse = .ok (receivedResponse resp) := by
  rw [ResponseParser.takeResponse, hq.start_eq]
  simp only [h.status, hq.headers_eq, h.message.buildHeaders_eq,
    hq.body_eq]
  rfl

end Responses

/-! ## The wire -/

/-- A message that can be sent with a `Content-Length` is parsed from its encoding, and exactly
its encoding is consumed, whatever follows. It is read back with its start line, its body and its
headers, to which the `Content-Length` is added that the encoder writes if there was none: for a
request with a body, and for every response. -/
theorem messages_survive_the_wire (uris : UriSyntax) (table : ReasonTable) :
    (∀ (req : Request) (rest : Bytes), SendableRequest uris req →
      ∃ p, RequestParser.feed RequestParser.new (encodeRequest req ++ rest) =
          some (.ok (((encodeRequest req).length, true), p)) ∧
        p.takeRequest uris.parse = .ok (receivedRequest req)) ∧
    (∀ (resp : Response) (rest : Bytes), SendableResponse table resp →
      ∃ p, ResponseParser.feed ResponseParser.new (encodeResponse table resp ++ rest) =
          some (.ok (((encodeResponse table resp).length, true), p)) ∧
        p.takeResponse = .ok (receivedResponse resp)) := by
  constructor
  · intro req rest h
    obtain ⟨q, hrun, hq⟩ := h.run rest
    refine ⟨q, ?_, h.takeRequest_eq hq⟩
    rw [RequestParser.feed, feed_eq RequestParser.lawful RequestParser.new_ready, Machine.feed,
      hrun]
    simp [Outcome.map, machine, isComplete, hq.complete]
  · intro resp rest h
    obtain ⟨q, hrun, hq⟩ := h.run rest
    refine ⟨q, ?_, h.takeResponse_eq hq⟩
    rw [ResponseParser.feed, feed_eq ResponseParser.lawful ResponseParser.new_ready, Machine.feed,
      hrun]
    simp [Outcome.map, machine, isComplete, hq.complete]

def oneUri (uri : Bytes) (h : (∀ b ∈ uri, 0x20 < b) ∧ validUtf8 uri = true) : UriSyntax where
  parse text := if text = uri then .ok uri else .error []
  printable text u hu := by
    split at hu
    · cases hu
      exact h.1
    · cases hu
  utf8 text u hu := by
    split at hu
    · cases hu
      exact h.2
    · cases hu

def noReasons : ReasonTable := ⟨fun _ => none, fun _ _ h => nomatch h⟩

def post : Request :=
  ⟨ascii "POST", ascii "/a", .http11, HeaderMap.empty.append (ascii "host") (ascii "x"),
    ascii "hello"⟩

def okResponse : Response := ⟨200, .http11, HeaderMap.empty, ascii "hi"⟩

theorem post_survives_the_wire :
    (∃ p, RequestParser.feed RequestParser.new (encodeRequest post ++ ascii "GET") =
        some (.ok (((encodeRequest post).length, true), p)) ∧
      p.takeRequest (oneUri (ascii "/a") (by decide +kernel)).parse = .ok (receivedRequest post)) ∧
    (∃ p, ResponseParser.feed ResponseParser.new
          (encodeResponse noReasons okResponse ++ ascii "HTTP") =
        some (.ok (((encodeResponse noReasons okResponse).length, true), p)) ∧
      p.takeResponse = .ok (receivedResponse okResponse)) := by
  have h := messages_survive_the_wire (oneUri (ascii "/a") (by decide +kernel)) noReasons
  constructor
  · exact h.1 post _ ⟨by decide, rfl, ⟨by decide +kernel, by decide +kernel, by decide +kernel,
      by decide +kernel, by decide +kernel, by decide +kernel⟩, by decide +kernel⟩
  · exact h.2 okResponse _ ⟨by decide, ⟨by decide +kernel, by decide +kernel, by decide +kernel,
      by decide +kernel, by decide +kernel, by decide +kernel⟩, by decide, by decide +kernel⟩

/-- The header list that is read back is not the one that was sent. -/
theorem post_gets_length :
    ∃ p, RequestParser.feed RequestParser.new (encodeRequest post) =
        some (.ok (((encodeRequest post).length, true), p)) ∧
      ∃ req, p.takeRequest (oneUri (ascii "/a") (by decide +kernel)).parse = .ok req ∧
        req.headers.entries = post.headers.entries ++ [(ascii "content-length", ascii "5")] := by
  refine ⟨_, rfl, _, rfl, ?_⟩
  decide +kernel

end Starfish.Http.H1
