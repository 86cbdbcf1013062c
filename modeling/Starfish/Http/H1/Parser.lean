import Starfish.Http.Message
import Starfish.Lib.Incremental

/-!
# HTTP/1.1 parsers

The incremental parsers of requests and responses (RFC 9112). Both are state machines that
accept bytes through `feed` and handle `Content-Length`, chunked transfer-encoding and bodies
that end with the connection. They differ in the start line, in the rule for a message without
a length and in the reading of a body, which is what a `Grammar` holds.

Offsets and counters are natural numbers: a position is at most the length of the data, and
the count of header bytes at most one above its limit. The slices, indices and subtractions
that can panic do so in the model.
-/

namespace Starfish.Http.H1

open Quic (Bytes)

def maxHeaderSize : Nat := 8 * 1024

def maxChunkSizeLine : Nat := 64

inductive BodyKind
  | contentLength (len : Nat)
  | chunked
  | untilClose
  | none
deriving DecidableEq, Repr

inductive ParseState
  | requestLine
  | statusLine
  | headerLine
  | body
  | chunkSize
  | chunkData (remaining : Nat)
  | chunkTrailer
  | complete
deriving DecidableEq, Repr

/-- Strip a line ending: a trailing `\n` and a `\r` before it. No result if the buffer does not
end with `\n`. -/
def stripLineEnding (buf : Bytes) : Option Bytes :=
  if buf.getLast? = some 0x0a then
    let content := buf.dropLast
    if content.getLast? = some 0x0d then some content.dropLast else some content
  else none

structure MessageParser (S : Type) where
  state : ParseState
  buf : Bytes
  start : S
  headers : List (Bytes × Bytes)
  body : Bytes
  bodyKind : BodyKind
  bodyRemaining : Nat
  headerBytesRead : Nat
  sawLastChunk : Bool
deriving DecidableEq

/-- What is different for requests and for responses. -/
structure Grammar (S : Type) where
  first : ParseState
  fresh : S
  parseStart : Bytes → Outcome HttpError S
  determineBodyKind : MessageParser S → Except HttpError (MessageParser S)
  readBody : MessageParser S → Bytes → Outcome HttpError (Nat × MessageParser S)

/-! ## Header fields -/

/-- The codings of all `Transfer-Encoding` headers, combined in wire order. -/
def transferCodings (headers : List (Bytes × Bytes)) : List Bytes :=
  ((headers.filter fun h => eqIgnoreAsciiCase h.1 (ascii "transfer-encoding")).flatMap
    fun h => splitOn 0x2c h.2).map trim

/-- `chunked` is the final transfer-coding. -/
def hasFinalChunkedTransferCoding (headers : List (Bytes × Bytes)) : Bool :=
  match ((transferCodings headers).filter fun coding => !coding.isEmpty).getLast? with
  | some coding => eqIgnoreAsciiCase coding (ascii "chunked")
  | none => false

/-- The lengths of one `Content-Length` value, which have to agree with the one found before. -/
def parseLengths (value : Bytes) : Option Nat → List Bytes → Except HttpError (Option Nat)
  | parsed, [] => .ok parsed
  | parsed, raw :: rest =>
    match parseU64 (trim raw) with
    | none => .error (.parse "invalid Content-Length: " value)
    | some len =>
      match parsed with
      | some existing =>
        if existing ≠ len then
          .error (.parse "conflicting Content-Length headers: "
            (decimal existing ++ ascii " vs " ++ decimal len))
        else parseLengths value parsed rest
      | none => parseLengths value (some len) rest

def parseLengthValues : Option Nat → List Bytes → Except HttpError (Option Nat)
  | parsed, [] => .ok parsed
  | parsed, value :: rest =>
    match parseLengths value parsed (splitOn 0x2c value) with
    | .ok parsed => parseLengthValues parsed rest
    | .error e => .error e

def contentLengthValues (headers : List (Bytes × Bytes)) : List Bytes :=
  (headers.filter fun h => eqIgnoreAsciiCase h.1 (ascii "content-length")).map Prod.snd

def parseContentLength (headers : List (Bytes × Bytes)) : Except HttpError (Option Nat) :=
  parseLengthValues none (contentLengthValues headers)

def firstHeader (headers : List (Bytes × Bytes)) (name : Bytes) : Option Bytes :=
  (headers.find? fun h => eqIgnoreAsciiCase h.1 name).map Prod.snd

def parseKeepAliveMax (headers : List (Bytes × Bytes)) : Option Nat :=
  (firstHeader headers (ascii "keep-alive")).bind fun value =>
    (splitOn 0x2c value).findSome? fun param =>
      (splitOnce 0x3d (trim param)).bind fun parts =>
        if eqIgnoreAsciiCase (trim parts.1) (ascii "max") then parseU64 (trim parts.2) else none

/-! ## Lines -/

variable {S : Type}

namespace MessageParser

def pushHeadByte (p : MessageParser S) (b : UInt8) : Except HttpError (MessageParser S) :=
  if p.headerBytesRead + 1 > maxHeaderSize then .error .headerTooLarge
  else .ok { p with buf := p.buf ++ [b], headerBytesRead := p.headerBytesRead + 1 }

def onLine (p : MessageParser S) (finish : Bytes → Outcome HttpError (MessageParser S)) :
    Outcome HttpError (MessageParser S × Bool) :=
  match stripLineEnding p.buf with
  | some content => (finish content).map fun q => (q, true)
  | none => .ok (p, false)

/-- The turn of `parse_request_line` and `parse_status_line` for one byte. -/
def startLineByte (g : Grammar S) (p : MessageParser S) (b : UInt8) :
    Outcome HttpError (MessageParser S × Bool) := do
  let p ← Outcome.ofExcept (p.pushHeadByte b)
  p.onLine fun content =>
    (g.parseStart content).map fun start => { p with start, buf := [], state := .headerLine }

def parseHeader (p : MessageParser S) (line : Bytes) : Except HttpError (MessageParser S) :=
  if validUtf8 line then
    match splitOnce 0x3a line with
    | some parts =>
      .ok { p with headers := p.headers ++ [(trim parts.1, trim parts.2)], buf := [] }
    | none => .error (.parse "malformed header: " line)
  else .error (.parse "invalid UTF-8 in header" [])

/-- The turn of `parse_header_line` for one byte. -/
def headerLineByte (g : Grammar S) (p : MessageParser S) (b : UInt8) :
    Outcome HttpError (MessageParser S × Bool) := do
  let p ← Outcome.ofExcept (p.pushHeadByte b)
  p.onLine fun content => Outcome.ofExcept <|
    if content.isEmpty then g.determineBodyKind { p with buf := [] } else p.parseHeader content

def chunkSizeOf (line : Bytes) : Except HttpError Nat :=
  if validUtf8 line then
    match parseHex (trim ((splitOn 0x3b line).headD [])) with
    | some size => .ok size
    | none => .error .invalidChunkEncoding
  else .error .invalidChunkEncoding

/-- The turn of `parse_chunk_size` for one byte. -/
def chunkSizeByte (p : MessageParser S) (b : UInt8) :
    Outcome HttpError (MessageParser S × Bool) :=
  let p := { p with buf := p.buf ++ [b] }
  if p.buf.length > maxChunkSizeLine then .error .invalidChunkEncoding
  else p.onLine fun content => (Outcome.ofExcept (chunkSizeOf content)).map fun size =>
    if size = 0 then { p with buf := [], sawLastChunk := true, state := .chunkTrailer }
    else { p with buf := [], state := .chunkData size }

/-- The turn of `skip_chunk_trailer` for one byte. -/
def chunkTrailerByte (p : MessageParser S) (b : UInt8) :
    Outcome HttpError (MessageParser S × Bool) :=
  let p := { p with buf := p.buf ++ [b] }
  p.onLine fun _ => .ok { p with
    buf := [], state := if p.sawLastChunk then .complete else .chunkSize }

/-! ## Bodies -/

def readFixed (p : MessageParser S) (data : Bytes) :
    Outcome HttpError (Nat × MessageParser S) := do
  let want := min p.bodyRemaining data.length
  let taken ← Outcome.range data 0 want
  let remaining ← Outcome.sub p.bodyRemaining want
  .ok (want, { p with
    body := p.body ++ taken
    bodyRemaining := remaining
    state := if remaining = 0 then .complete else p.state })

def readChunkData (p : MessageParser S) (data : Bytes) :
    Outcome HttpError (Nat × MessageParser S) :=
  match p.state with
  | .chunkData remaining => do
      let take := min data.length remaining
      let taken ← Outcome.range data 0 take
      let left ← Outcome.sub remaining take
      .ok (take, { p with
        body := p.body ++ taken
        state := if left = 0 then .chunkTrailer else .chunkData left })
  | _ => .ok (0, p)

/-- The rules both kinds of messages share; `otherwise` is for a message without a length. -/
def frameByHeaders (p otherwise : MessageParser S) : Except HttpError (MessageParser S) :=
  if hasFinalChunkedTransferCoding p.headers then
    .ok { p with bodyKind := .chunked, state := .chunkSize }
  else
    match parseContentLength p.headers with
    | .error e => .error e
    | .ok (some len) =>
      if len = 0 then .ok { p with bodyKind := .none, state := .complete }
      else .ok { p with bodyKind := .contentLength len, bodyRemaining := len, state := .body }
    | .ok none => .ok otherwise

/-! ## Feeding -/

def new (g : Grammar S) : MessageParser S where
  state := g.first
  buf := []
  start := g.fresh
  headers := []
  body := []
  bodyKind := .none
  bodyRemaining := 0
  headerBytesRead := 0
  sawLastChunk := false

def isComplete (p : MessageParser S) : Bool := p.state == .complete

/-- The function that `feed` calls on the rest of the data, chosen by the state. -/
def parseBlock (g : Grammar S) (p : MessageParser S) (data : Bytes) :
    Outcome HttpError (Nat × MessageParser S) :=
  match p.state with
  | .requestLine | .statusLine =>
    if p.state = g.first then Incremental.scan (startLineByte g) p data
    else .error (.parse "unexpected parser state" [])
  | .headerLine => Incremental.scan (headerLineByte g) p data
  | .body => g.readBody p data
  | .chunkSize => Incremental.scan chunkSizeByte p data
  | .chunkData _ => p.readChunkData data
  | .chunkTrailer => Incremental.scan chunkTrailerByte p data
  | .complete => .ok (0, p)

/-- Feed bytes into the parser: how many were consumed, and whether the message is complete. No
answer means that the loop does not end. -/
def feed (g : Grammar S) (p : MessageParser S) (data : Bytes) :
    Option (Outcome HttpError ((Nat × Bool) × MessageParser S)) :=
  Incremental.loop (parseBlock g) isComplete data (data.length + 1) p 0

def keepAliveFor (version : Option Nat) (headers : List (Bytes × Bytes)) : Bool :=
  match version, firstHeader headers (ascii "connection") with
  | some 1, some value => !eqIgnoreAsciiCase value (ascii "close")
  | some 1, none => true
  | _, some value => eqIgnoreAsciiCase value (ascii "keep-alive")
  | _, none => false

end MessageParser

def latin1 (b : UInt8) : Bytes :=
  if b < 0x80 then [b] else [(0xc0 : UInt8) ||| (b >>> 6), (0x80 : UInt8) ||| (b &&& 0x3f)]

def versionDigit (text : Bytes) : Outcome HttpError Nat := do
  let b ← Outcome.index text 7
  if b ≠ 0x30 ∧ b ≠ 0x31 then .error (.parse "unsupported HTTP version: HTTP/1." (latin1 b))
  else Outcome.sub b.toNat 0x30

def versionOf (digit : Option Nat) : Version := if digit = some 0 then .http10 else .http11

/-! ## Requests -/

structure RequestStart where
  method : Option Bytes
  uri : Option Bytes
  version : Option Nat
deriving DecidableEq, Repr

abbrev RequestParser := MessageParser RequestStart

def parseRequestLine (line : Bytes) : Outcome HttpError RequestStart :=
  if validUtf8 line then
    match splitN 0x20 3 line with
    | [] => .error (.parse "missing method" [])
    | [_] => .error (.parse "missing URI" [])
    | [_, _] => .error (.parse "missing HTTP version" [])
    | method :: uri :: version :: _ =>
      if (ascii "HTTP/1.").isPrefixOf version then
        (versionDigit version).map fun digit => ⟨some method, some uri, some digit⟩
      else .error (.parse "unsupported version: " version)
  else .error (.parse "invalid UTF-8 in request line" [])

namespace RequestParser

def determineBodyKind (p : RequestParser) : Except HttpError RequestParser :=
  p.frameByHeaders { p with bodyKind := .none, state := .complete }

def readBody (p : RequestParser) (data : Bytes) : Outcome HttpError (Nat × RequestParser) :=
  p.readFixed data

def grammar : Grammar RequestStart where
  first := .requestLine
  fresh := ⟨none, none, none⟩
  parseStart := parseRequestLine
  determineBodyKind := determineBodyKind
  readBody := readBody

def new : RequestParser := MessageParser.new grammar

def feed (p : RequestParser) (data : Bytes) :
    Option (Outcome HttpError ((Nat × Bool) × RequestParser)) :=
  MessageParser.feed grammar p data

/-- Extract the parsed request. `parseUri` is the URI parser of the `http` crate, a URI being
the text it is displayed as. -/
def takeRequest (parseUri : Bytes → Except Bytes Bytes) (p : RequestParser) :
    Except HttpError Request :=
  match p.start.method with
  | none => .error (.parse "no method" [])
  | some method =>
    if isMethod method then
      match p.start.uri with
      | none => .error (.parse "no URI" [])
      | some uri =>
        match parseUri uri with
        | .error e => .error (.parse "invalid URI: " e)
        | .ok target => (buildHeaders "build request: " .empty p.headers).map fun headers =>
          ⟨method, target, versionOf p.start.version, headers, p.body⟩
    else .error (.parse "invalid method: " (ascii "invalid HTTP method"))

def keepAlive (p : RequestParser) : Bool := MessageParser.keepAliveFor p.start.version p.headers

end RequestParser

/-! ## Responses -/

structure StatusStart where
  status : Option Nat
  version : Option Nat
deriving DecidableEq, Repr

abbrev ResponseParser := MessageParser StatusStart

def parseStatusLine (line : Bytes) : Outcome HttpError StatusStart :=
  if validUtf8 line then
    if line.length < 12 ∨ (ascii "HTTP/1.").isPrefixOf line = false then
      .error (.parse "invalid status line: " line)
    else do
      let digit ← versionDigit line
      let status ← strSlice line 9 12
      match parseU16 status with
      | some code => .ok ⟨some code, some digit⟩
      | none => .error (.parse "invalid status: " status)
  else .error (.parse "invalid UTF-8 in status line" [])

namespace ResponseParser

/-- Informational responses, 204 and 304 have no body. -/
def statusWithoutBody (status : Nat) : Bool :=
  (100 ≤ status && status < 200) || status == 204 || status == 304

/-- A response without a length lasts until the connection closes. -/
def determineBodyKind (p : ResponseParser) : Except HttpError ResponseParser :=
  if p.start.status.any statusWithoutBody then
    .ok { p with bodyKind := .none, state := .complete }
  else p.frameByHeaders { p with bodyKind := .untilClose, state := .body }

def readBody (p : ResponseParser) (data : Bytes) : Outcome HttpError (Nat × ResponseParser) :=
  match p.bodyKind with
  | .contentLength _ => p.readFixed data
  | .untilClose => .ok (data.length, { p with body := p.body ++ data })
  | _ => .ok (0, p)

def grammar : Grammar StatusStart where
  first := .statusLine
  fresh := ⟨none, none⟩
  parseStart := parseStatusLine
  determineBodyKind := determineBodyKind
  readBody := readBody

def new : ResponseParser := MessageParser.new grammar

def feed (p : ResponseParser) (data : Bytes) :
    Option (Outcome HttpError ((Nat × Bool) × ResponseParser)) :=
  MessageParser.feed grammar p data

def takeResponse (p : ResponseParser) : Except HttpError Response :=
  match p.start.status with
  | none => .error (.parse "no status code" [])
  | some status =>
    if 100 ≤ status ∧ status < 1000 then
      (buildHeaders "build response: " .empty p.headers).map fun headers =>
        ⟨status, versionOf p.start.version, headers, p.body⟩
    else .error (.parse "invalid status: " (ascii "invalid status code"))

def keepAlive (p : ResponseParser) : Bool := MessageParser.keepAliveFor p.start.version p.headers

def keepAliveMax (p : ResponseParser) : Option Nat := parseKeepAliveMax p.headers

def isHeadComplete (p : ResponseParser) : Bool :=
  p.start.status.isSome &&
    match p.state with
    | .body | .chunkSize | .chunkData _ | .chunkTrailer | .complete => true
    | _ => false

def completeWithoutBody (p : ResponseParser) : ResponseParser :=
  if p.isHeadComplete then
    { p with
      buf := [], body := [], bodyKind := .none, bodyRemaining := 0, sawLastChunk := false,
      state := .complete }
  else p

/-- The end of the stream ends a body that lasts until then. -/
def signalEof (p : ResponseParser) : ResponseParser :=
  if p.bodyKind = .untilClose then { p with state := .complete } else p

end ResponseParser

end Starfish.Http.H1
