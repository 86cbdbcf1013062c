import Mathlib.Data.List.Sort
import Starfish.Http.Message
import Starfish.Lib.KeyedStore

/-!
# The cookie jar

Cookies that the HTTP client has been sent, by name, domain and path. An instant is a signed
64-bit number of seconds, to which a duration is added with a panic on overflow. Every reading
of the clock is a parameter.
-/

namespace Starfish.Http.Client

open Quic (Bytes)
open KeyedStore (Change nodup_filter nodup_change)

/-! ## URIs -/

/-- `http::uri::Authority`: its text, and the host and port in it. -/
structure Authority where
  text : Bytes
  host : Bytes
  port : Option Nat
deriving DecidableEq

/-- `http::Uri`, as far as its accessors are used. -/
structure Uri where
  scheme : Option Bytes
  authority : Option Authority
  path : Bytes
  pathAndQuery : Option Bytes
deriving DecidableEq

namespace Uri

def host (uri : Uri) : Option Bytes := uri.authority.map Authority.host

def port (uri : Uri) : Option Nat := uri.authority.bind Authority.port

def isHttps (uri : Uri) : Bool := uri.scheme == some (ascii "https")

end Uri

/-! ## Cookies -/

structure StoredCookie where
  name : Bytes
  value : Bytes
  domain : Bytes
  path : Bytes
  secure : Bool
  hostOnly : Bool
  expiresAt : Option Int
deriving DecidableEq

inductive CookieStoreOp
  | put (cookie : StoredCookie)
  | delete (name domain path : Bytes)
deriving DecidableEq

/-- A cookie is replaced or deleted by one of the same name, domain and path. -/
def StoredCookie.key (cookie : StoredCookie) : Bytes × Bytes × Bytes :=
  (cookie.name, cookie.domain, cookie.path)

def CookieStoreOp.change : CookieStoreOp → Change StoredCookie (Bytes × Bytes × Bytes)
  | .put cookie => .put cookie
  | .delete name domain path => .delete (name, domain, path)

def lowercase (s : Bytes) : Bytes := s.map toLower

def domainMatches (host domain : Bytes) : Bool :=
  lowercase host == lowercase domain || (0x2e :: lowercase domain).isSuffixOf (lowercase host)

def pathMatches (requestPath cookiePath : Bytes) : Bool :=
  requestPath == cookiePath ||
    (cookiePath.isPrefixOf requestPath &&
      (cookiePath.getLast? == some 0x2f || requestPath[cookiePath.length]? == some 0x2f))

def StoredCookie.matches (cookie : StoredCookie) (host requestPath : Bytes) (secure : Bool) : Bool :=
  (!cookie.secure || secure) &&
    (if cookie.hostOnly then eqIgnoreAsciiCase host cookie.domain
      else domainMatches host cookie.domain) &&
    pathMatches requestPath cookie.path

def StoredCookie.unexpired (now : Int) (cookie : StoredCookie) : Bool :=
  match cookie.expiresAt with
  | some expiresAt => now < expiresAt
  | none => true

def defaultCookiePath (uri : Uri) : Bytes :=
  if uri.path.head? ≠ some 0x2f ∨ uri.path = ascii "/" then ascii "/"
  else match rsplitOnce 0x2f uri.path with
    | none | some ([], _) => ascii "/"
    | some (dir, _) => dir

/-! ## Reading a `Set-Cookie` value -/

structure CookieAttributes where
  domain : Bytes
  path : Bytes
  hostOnly : Bool
  secure : Bool
  maxAge : Option Int
deriving DecidableEq

def attributeParts (attr : Bytes) : Bytes × Option Bytes :=
  match splitOnce 0x3d attr with
  | some parts => (lowercase (trim parts.1), some (trim parts.2))
  | none => (lowercase attr, none)

/-- A domain without leading dots, in lower case. -/
def normalizeDomain (value : Bytes) : Bytes := lowercase (value.dropWhile (· == 0x2e))

/-- The `match` on the name of an attribute. No result if the cookie is refused. -/
def CookieAttributes.read (responseHost defaultPath : Bytes) (secureOrigin : Bool)
    (found : CookieAttributes) (attr : Bytes) : Option CookieAttributes :=
  let name := (attributeParts attr).1
  let value := (attributeParts attr).2
  if name = ascii "domain" then
    value.bind fun value =>
      let normalized := normalizeDomain value
      if normalized = [] ∨ domainMatches responseHost normalized = false then none
      else some { found with domain := normalized, hostOnly := false }
  else if name = ascii "path" then
    match value with
    | some value =>
      some { found with path := if value.head? = some 0x2f then value else defaultPath }
    | none => some found
  else if name = ascii "secure" then
    if secureOrigin then some { found with secure := true } else none
  else if name = ascii "max-age" then some { found with maxAge := value.bind parseI64 }
  else some found

def instantMax : Int := 2 ^ 63 - 1

def cookieStoreOp (name value : Bytes) (found : CookieAttributes) (now : Int) :
    Outcome HttpError CookieStoreOp :=
  let stored (expiresAt : Option Int) : CookieStoreOp :=
    .put ⟨name, value, found.domain, found.path, found.secure, found.hostOnly, expiresAt⟩
  match found.maxAge with
  | some age =>
    if age ≤ 0 then .ok (.delete name found.domain found.path)
    -- adding a duration to an instant panics on overflow
    else if now + age ≤ instantMax then .ok (stored (some (now + age)))
    else .panic
  | none => .ok (stored none)

def CookieAttributes.initial (responseHost defaultPath : Bytes) : CookieAttributes :=
  ⟨lowercase responseHost, defaultPath, true, false, none⟩

def cookieSegments (raw : Bytes) : List Bytes := (splitOn 0x3b raw).map trim

def parseSetCookie (raw responseHost defaultPath : Bytes) (secureOrigin : Bool) (now : Int) :
    Outcome HttpError (Option CookieStoreOp) :=
  match cookieSegments raw with
  | [] => .ok none
  | first :: attributes =>
    match splitOnce 0x3d first with
    | none | some ([], _) => .ok none
    | some (name, value) =>
      match attributes.foldlM (CookieAttributes.read responseHost defaultPath secureOrigin)
        (.initial responseHost defaultPath) with
      | none => .ok none
      | some found => (cookieStoreOp name value found now).map some

/-! ## The jar -/

/-- The cookies of a client, at most one for each name, domain and path. -/
@[ext]
structure CookieJar where
  cookies : List StoredCookie
  unique : (cookies.map StoredCookie.key).Nodup
deriving DecidableEq

namespace CookieJar

def empty : CookieJar := ⟨[], by simp⟩

def change (jar : CookieJar) (op : CookieStoreOp) : CookieJar :=
  ⟨KeyedStore.change StoredCookie.key jar.cookies op.change, nodup_change _ jar.unique _⟩

def removeExpired (jar : CookieJar) (now : Int) : CookieJar :=
  ⟨jar.cookies.filter (StoredCookie.unexpired now), nodup_filter _ jar.unique⟩

/-- The loop over the `Set-Cookie` headers; `clock` gives the readings of the clock. -/
def storeValues (uri : Uri) (host : Bytes) (clock : Nat → Int) :
    Nat → CookieJar → List Bytes → Outcome HttpError CookieJar
  | i, jar, [] => .ok (jar.removeExpired (clock i))
  | i, jar, headerValue :: rest =>
    match toStr headerValue with
    | none => storeValues uri host clock (i + 1) jar rest
    | some raw =>
      (parseSetCookie raw host (defaultCookiePath uri) uri.isHttps (clock i)).bind fun op =>
        match op with
        | none => storeValues uri host clock (i + 1) jar rest
        | some op => storeValues uri host clock (i + 1) (jar.change op) rest

def store (jar : CookieJar) (uri : Uri) (headers : HeaderMap) (clock : Nat → Int) :
    Outcome HttpError CookieJar :=
  match uri.host with
  | none => .ok jar
  | some host => jar.storeValues uri host clock 0 (headers.getAll (ascii "set-cookie"))

def matching (jar : CookieJar) (host : Bytes) (uri : Uri) : List StoredCookie :=
  (jar.cookies.filter fun cookie => cookie.matches host uri.path uri.isHttps).insertionSort
    fun a b => b.path.length ≤ a.path.length

def render (cookies : List StoredCookie) : Bytes :=
  (ascii "; ").intercalate (cookies.map fun cookie => cookie.name ++ ascii "=" ++ cookie.value)

def apply (jar : CookieJar) (now : Int) (uri : Uri) (headers : HeaderMap) :
    CookieJar × HeaderMap :=
  if headers.containsKey (ascii "cookie") then (jar, headers)
  else match uri.host with
    | none => (jar, headers)
    | some host =>
      let jar := jar.removeExpired now
      if jar.matching host uri = [] then (jar, headers)
      else match headerValue (render (jar.matching host uri)) with
        -- there is no value to replace
        | some value => (jar, headers.append (ascii "cookie") value)
        | none => (jar, headers)

end CookieJar

end Starfish.Http.Client
