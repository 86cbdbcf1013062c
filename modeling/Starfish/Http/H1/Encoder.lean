import Starfish.Http.Message

/-!
# HTTP/1.1 serialization

Requests and responses in wire format (RFC 9112).
-/

namespace Starfish.Http.H1

open Quic (Bytes)

def transferEncoding : Bytes := ascii "transfer-encoding"

def contentLength : Bytes := ascii "content-length"

def hasTransferEncoding (headers : HeaderMap) : Bool := headers.containsKey transferEncoding

/-- A header line; a value that is not visible ASCII is written as an empty one. -/
def encodeHeader (name value : Bytes) : Bytes :=
  name ++ ascii ": " ++ (toStr value).getD [] ++ ascii "\r\n"

def encodeHeaders (headers : HeaderMap) : Bytes :=
  (headers.entries.filter fun h => !(hasTransferEncoding headers && h.1 == contentLength)).flatMap
    fun h => encodeHeader h.1 h.2

def addedLength (body : Bytes) : Bytes :=
  ascii "Content-Length: " ++ decimal body.length ++ ascii "\r\n"

def addsLengthToRequest (req : Request) : Bool :=
  !hasTransferEncoding req.headers && !req.headers.containsKey contentLength && !req.body.isEmpty

def encodeRequestHead (req : Request) : Bytes :=
  req.method ++ ascii " " ++ req.target ++ ascii " HTTP/1.1\r\n" ++ encodeHeaders req.headers ++
    (if addsLengthToRequest req then addedLength req.body else []) ++ ascii "\r\n"

def encodeRequest (req : Request) : Bytes := encodeRequestHead req ++ req.body

/-- The canonical reason phrases of the `http` crate. -/
structure ReasonTable where
  reason : Nat → Option Bytes
  visible : ∀ status text, reason status = some text → text.all isVisibleByte

def addsLengthToResponse (resp : Response) : Bool :=
  !hasTransferEncoding resp.headers && !resp.headers.containsKey contentLength

def encodeResponseHead (table : ReasonTable) (resp : Response) : Bytes :=
  ascii "HTTP/1.1 " ++ decimal resp.status ++ ascii " " ++
    (table.reason resp.status).getD (ascii "Unknown") ++ ascii "\r\n" ++
    encodeHeaders resp.headers ++
    (if addsLengthToResponse resp then addedLength resp.body else []) ++ ascii "\r\n"

def encodeResponse (table : ReasonTable) (resp : Response) : Bytes :=
  encodeResponseHead table resp ++ resp.body

end Starfish.Http.H1
