import Starfish.Http.Client.Cookies
import Starfish.Http.H3.RequestStream

/-!
# Requests as header lists

The client writes a request as pseudo-headers, headers and a body; the server checks the
pseudo-headers and builds the request again. What it does not check is the rest of the list.
-/

namespace Starfish.Http.H3

open Quic (Bytes)
open H3.Client (HeaderList messageError)

/-- `http::Request<Vec<u8>>` with its URI taken apart. -/
structure H3Request where
  method : Bytes
  uri : Http.Client.Uri
  headers : HeaderMap
  body : Bytes
deriving DecidableEq

/-- Parsing of URIs in the `http` crate. -/
structure UriParser where
  parse : Bytes → Except Bytes Http.Client.Uri
  /-- `Uri::builder` with scheme, authority, path and query. -/
  build : Bytes → Bytes → Bytes → Except Bytes Http.Client.Uri

def connectMethod : Bytes := ascii "CONNECT"

/-! ## The server -/

inductive PseudoName
  | method
  | scheme
  | authority
  | path
deriving DecidableEq

namespace PseudoName

def text : PseudoName → String
  | method => ":method"
  | scheme => ":scheme"
  | authority => ":authority"
  | path => ":path"

def ofBytes (name : Bytes) : Option PseudoName :=
  [method, scheme, authority, path].find? fun p => ascii p.text == name

end PseudoName

abbrev RequestPseudoHeaders := PseudoName → Option Bytes

def setRequestPseudoHeader (pseudo : RequestPseudoHeaders) (name : PseudoName) (value : Bytes) :
    Except HttpError RequestPseudoHeaders :=
  if (pseudo name).isSome then .error (messageError s!"duplicate {name.text} pseudo-header")
  else .ok (Function.update pseudo name (some value))

def isPseudo (name : Bytes) : Bool := name.head? == some 0x3a

def collectPseudoHeaders : RequestPseudoHeaders → Bool → HeaderList →
    Except HttpError RequestPseudoHeaders
  | pseudo, _, [] => .ok pseudo
  | pseudo, sawRegularHeader, (name, value) :: rest =>
    if isPseudo name then
      if sawRegularHeader then
        .error (messageError "request pseudo-header field appeared after a regular header field")
      else
        match PseudoName.ofBytes name with
        | none =>
          .error (.parse "H3_MESSAGE_ERROR (0x010e): unexpected request pseudo-header " name)
        | some slot =>
          match setRequestPseudoHeader pseudo slot value with
          | .error e => .error e
          | .ok pseudo => collectPseudoHeaders pseudo sawRegularHeader rest
    else collectPseudoHeaders pseudo true rest

/-- The checks after the loop of `validate_request_pseudo_headers`. -/
def checkPseudoHeaders (pseudo : RequestPseudoHeaders) : Except HttpError Unit :=
  match pseudo .method with
  | none => .error (messageError "missing :method pseudo-header")
  | some method =>
    if method = connectMethod then
      if (pseudo .scheme).isSome || (pseudo .path).isSome then
        .error (messageError "CONNECT request must not include :scheme or :path pseudo-headers")
      else if (pseudo .authority).isNone then
        .error (messageError "CONNECT request is missing :authority pseudo-header")
      else .ok ()
    else if (pseudo .scheme).isNone then .error (messageError "missing :scheme pseudo-header")
    else if (pseudo .path).isNone then .error (messageError "missing :path pseudo-header")
    else .ok ()

def validateRequestPseudoHeaders (headers : HeaderList) : Except HttpError RequestPseudoHeaders :=
  match collectPseudoHeaders (fun _ => none) false headers with
  | .error e => .error e
  | .ok pseudo => (checkPseudoHeaders pseudo).map fun _ => pseudo

def requestUri (uris : UriParser) (method : Bytes) (pseudo : RequestPseudoHeaders) :
    Outcome HttpError Http.Client.Uri :=
  let invalid (parsed : Except Bytes Http.Client.Uri) : Outcome HttpError Http.Client.Uri :=
    .ofExcept (parsed.mapError (.parse "invalid URI: "))
  if method = connectMethod then
    match pseudo .authority with
    | some authority => invalid (uris.parse authority)
    | none => .panic
  else
    match pseudo .authority, pseudo .scheme, pseudo .path with
    | some authority, some scheme, some path => invalid (uris.build scheme authority path)
    | none, _, some path => invalid (uris.parse path)
    | _, _, _ => .panic

def requestFromH3Parts (uris : UriParser) (headers : HeaderList) (body : Bytes) :
    Outcome HttpError H3Request := do
  let pseudo ← Outcome.ofExcept (validateRequestPseudoHeaders headers)
  match pseudo .method with
  | none => .panic
  | some method =>
    if isMethod method then
      let uri ← requestUri uris method pseudo
      let map ← Outcome.ofExcept (buildHeaders "build request: " HeaderMap.empty
        (headers.filter fun e => !isPseudo e.1))
      return ⟨method, uri, map, body⟩
    else .error (.parse "invalid method: invalid HTTP method" [])

/-- `recv_request`, from the frames of the stream on. -/
def acceptRequest (uris : UriParser) (frames : List AnsweredFrame) : Outcome HttpError H3Request :=
  match Server.readRequest frames with
  | .error e => .error e
  | .ok (headers, body) => requestFromH3Parts uris headers body

/-! ## What is checked -/

structure PseudoFirst (headers : HeaderList) (pseudo : List (PseudoName × Bytes))
    (regular : HeaderList) : Prop where
  split : headers = (pseudo.map fun e => (ascii e.1.text, e.2)) ++ regular
  regular : ∀ e ∈ regular, isPseudo e.1 = false
  once : (pseudo.map Prod.fst).Nodup

def RequiredPseudo (pseudo : List (PseudoName × Bytes)) : Prop :=
  ∃ method, (.method, method) ∈ pseudo ∧
    if method = connectMethod then
      (∃ authority, (.authority, authority) ∈ pseudo) ∧
        ∀ value, (.scheme, value) ∉ pseudo ∧ (.path, value) ∉ pseudo
    else (∃ scheme, (.scheme, scheme) ∈ pseudo) ∧ ∃ path, (.path, path) ∈ pseudo

theorem PseudoName.ofBytes_eq_some {name : Bytes} {slot : PseudoName}
    (h : PseudoName.ofBytes name = some slot) : name = ascii slot.text := by
  have hfound := List.find?_some h
  exact (beq_iff_eq.mp hfound).symm

variable {headers : HeaderList} {slots : RequestPseudoHeaders} {body : Bytes}

theorem collectPseudoHeaders_ok {before after : RequestPseudoHeaders} {saw : Bool}
    (h : collectPseudoHeaders before saw headers = .ok after) :
    ∃ pseudo regular, PseudoFirst headers pseudo regular ∧ (saw = true → pseudo = []) ∧
      (∀ e ∈ pseudo, before e.1 = none) ∧
      ∀ name value, after name = some value ↔
        before name = some value ∨ (name, value) ∈ pseudo := by
  induction headers generalizing before saw with
  | nil =>
    cases h
    exact ⟨[], [], ⟨rfl, by simp, by simp⟩, fun _ => rfl, by simp, by simp⟩
  | cons e rest ih =>
    obtain ⟨name, value⟩ := e
    rw [collectPseudoHeaders] at h
    split at h
    · split at h
      · cases h
      · next hsaw =>
        split at h
        · cases h
        · next slot hslot =>
          by_cases hset : (before slot).isSome = true
          · simp only [setRequestPseudoHeader, if_pos hset] at h
            cases h
          · simp only [setRequestPseudoHeader, if_neg hset] at h
            obtain ⟨pseudo, regular, ⟨hsplit, hregular, honce⟩, -, hfree, hafter⟩ := ih h
            have hnew : slot ∉ pseudo.map Prod.fst := by
              intro hmem
              obtain ⟨e, he, heq⟩ := List.mem_map.mp hmem
              have hnone := hfree e he
              rw [heq, Function.update_self] at hnone
              cases hnone
            have hbefore : before slot = none := Option.not_isSome_iff_eq_none.mp hset
            refine ⟨(slot, value) :: pseudo, regular, ⟨?_, hregular, ?_⟩, ?_, ?_, ?_⟩
            · rw [List.map_cons, List.cons_append, ← hsplit, PseudoName.ofBytes_eq_some hslot]
            · exact List.nodup_cons.mpr ⟨hnew, honce⟩
            · exact fun htrue => absurd htrue hsaw
            · intro e he
              rcases List.mem_cons.mp he with rfl | he
              · exact hbefore
              · have hne : e.1 ≠ slot := fun heq => hnew (heq ▸ List.mem_map_of_mem he)
                exact Function.update_of_ne hne _ before ▸ hfree e he
            · intro name v
              rw [hafter, List.mem_cons, Prod.mk.injEq]
              by_cases hname : name = slot
              · subst hname
                simp [hbefore, eq_comm]
              · simp [hname]
    · next hname =>
      obtain ⟨pseudo, regular, ⟨hsplit, hregular, honce⟩, hnone, -, hafter⟩ := ih h
      obtain rfl : pseudo = [] := hnone rfl
      refine ⟨[], (name, value) :: regular, ⟨by rw [hsplit]; rfl, ?_, honce⟩, fun _ => rfl,
        by simp, hafter⟩
      exact List.forall_mem_cons.mpr ⟨Bool.eq_false_iff.mpr hname, hregular⟩

theorem checkPseudoHeaders_ok
    (h : checkPseudoHeaders slots = .ok ()) : ∃ method, slots .method = some method ∧
      if method = connectMethod then
        (slots .authority).isSome = true ∧ slots .scheme = none ∧ slots .path = none
      else (slots .scheme).isSome = true ∧ (slots .path).isSome = true := by
  rw [checkPseudoHeaders] at h
  cases hmethod : slots .method with
  | none =>
    rw [hmethod] at h
    cases h
  | some method =>
    refine ⟨method, rfl, ?_⟩
    simp only [hmethod] at h
    split
    · next hconnect =>
      rw [if_pos hconnect] at h
      cases hscheme : slots .scheme <;> cases hpath : slots .path <;>
        cases hauthority : slots .authority <;> simp [hscheme, hpath, hauthority] at h ⊢
    · next hconnect =>
      rw [if_neg hconnect] at h
      cases hscheme : slots .scheme <;> cases hpath : slots .path <;>
        simp [hscheme, hpath] at h ⊢

theorem validateRequestPseudoHeaders_ok (h : validateRequestPseudoHeaders headers = .ok slots) :
    ∃ pseudo regular, PseudoFirst headers pseudo regular ∧ RequiredPseudo pseudo := by
  rw [validateRequestPseudoHeaders] at h
  cases hcollect : collectPseudoHeaders (fun _ => none) false headers with
  | error e =>
    rw [hcollect] at h
    cases h
  | ok collected =>
    obtain ⟨pseudo, regular, hfirst, -, -, hslots⟩ := collectPseudoHeaders_ok hcollect
    simp only [reduceCtorEq, false_or] at hslots
    have present : ∀ {name}, (collected name).isSome = true → ∃ value, (name, value) ∈ pseudo := by
      intro name hname
      obtain ⟨value, hvalue⟩ := Option.isSome_iff_exists.mp hname
      exact ⟨value, (hslots name value).mp hvalue⟩
    have absent : ∀ {name}, collected name = none → ∀ value, (name, value) ∉ pseudo := by
      intro name hname value hmem
      rw [← hslots, hname] at hmem
      cases hmem
    cases hcheck : checkPseudoHeaders collected with
    | error e => simp [hcollect, hcheck, Except.map] at h
    | ok _ =>
      obtain ⟨method, hmethod, hrules⟩ := checkPseudoHeaders_ok hcheck
      refine ⟨pseudo, regular, hfirst, method, (hslots _ _).mp hmethod, ?_⟩
      split at hrules
      · next hconnect =>
        rw [if_pos hconnect]
        exact ⟨present hrules.1, fun v => ⟨absent hrules.2.1 v, absent hrules.2.2 v⟩⟩
      · next hconnect =>
        rw [if_neg hconnect]
        exact ⟨present hrules.1, present hrules.2⟩

/-! ## Requests that are handed on -/

def connectionSpecific : List Bytes :=
  ["connection", "keep-alive", "proxy-connection", "transfer-encoding", "upgrade"].map ascii

abbrev LowerCase (headers : HeaderList) : Prop :=
  ∀ e ∈ headers, ∀ b ∈ e.1, toLower b = b

abbrev NoConnectionSpecific (headers : HeaderList) : Prop := ∀ e ∈ headers, e.1 ∉ connectionSpecific

/-- Every `content-length` is the decimal length of the data. -/
abbrev LengthsAgree (headers : HeaderList) (dataLength : Nat) : Prop :=
  ∀ e ∈ headers, e.1 = ascii "content-length" →
    e.2.all isDigit = true ∧ parseU64 e.2 = some dataLength

structure RequestWellFormed (headers : HeaderList) (dataLength : Nat) : Prop where
  pseudo : ∃ pseudo regular, PseudoFirst headers pseudo regular ∧ RequiredPseudo pseudo
  lowerCase : LowerCase headers
  noConnectionSpecific : NoConnectionSpecific headers
  lengths : LengthsAgree headers dataLength

theorem readRequest_body {frames : List AnsweredFrame}
    (h : Server.readRequest frames = .ok (headers, body)) :
    body = frames.flatMap AnsweredFrame.payload := by
  rw [Server.readRequest, readMessage] at h
  split at h
  · cases h
  · next parts hparts =>
    cases hseen : parts.sawInitialHeaders with
    | false =>
      rw [hseen] at h
      cases h
    | true =>
      rw [hseen] at h
      cases h
      exact (readFrames_follows hparts).body

theorem requestFromH3Parts_ok {uris : UriParser}
    {request : H3Request} (h : requestFromH3Parts uris headers body = .ok request) :
    request.body = body ∧ ∃ slots, validateRequestPseudoHeaders headers = .ok slots := by
  obtain ⟨slots, hslots, h⟩ := Outcome.bind_eq_ok.mp h
  refine ⟨?_, slots, Outcome.ofExcept_ok_iff.mp hslots⟩
  split at h
  · cases h
  · split at h
    · obtain ⟨uri, -, h⟩ := Outcome.bind_eq_ok.mp h
      obtain ⟨map, -, h⟩ := Outcome.bind_eq_ok.mp h
      cases h
      rfl
    · cases h

/-- A request that is handed to the application is well formed if and only if the checks that
the server leaves out would have passed: names in lower case, no connection-specific header, and
`content-length`. -/
theorem accepted_well_formed_iff (uris : UriParser) (frames : List AnsweredFrame)
    (request : H3Request) (h : acceptRequest uris frames = .ok request) :
    ∃ headers, Server.readRequest frames = .ok (headers, request.body) ∧
      request.body = frames.flatMap AnsweredFrame.payload ∧
      (RequestWellFormed headers (frames.flatMap AnsweredFrame.payload).length ↔
        LowerCase headers ∧ NoConnectionSpecific headers ∧
        LengthsAgree headers (frames.flatMap AnsweredFrame.payload).length) := by
  rw [acceptRequest] at h
  cases hread : Server.readRequest frames with
  | error e =>
    rw [hread] at h
    cases h
  | ok parts =>
    obtain ⟨headers, body⟩ := parts
    rw [hread] at h
    obtain ⟨rfl, slots, hslots⟩ := requestFromH3Parts_ok h
    refine ⟨headers, rfl, readRequest_body hread, ?_⟩
    constructor
    · exact fun hwell => ⟨hwell.lowerCase, hwell.noConnectionSpecific, hwell.lengths⟩
    · rintro ⟨hlower, hspecific, hlengths⟩
      exact ⟨validateRequestPseudoHeaders_ok hslots, hlower, hspecific, hlengths⟩

def uriTexts : UriParser where
  parse text := .ok ⟨none, some ⟨text, text, none⟩, [], none⟩
  build scheme authority path :=
    .ok ⟨some scheme, some ⟨authority, authority, none⟩, path, some path⟩

def getHeaders (headers : HeaderList) : HeaderList :=
  [(ascii ":method", ascii "GET"), (ascii ":scheme", ascii "https"), (ascii ":path", ascii "/")] ++
    headers

def getFrames (headers : HeaderList) (body : Bytes) : List AnsweredFrame :=
  [(.headers [], .ok (getHeaders headers)), (.data body, .ok [])]

theorem get_request_well_formed : ∃ request,
    acceptRequest uriTexts (getFrames [(ascii "content-length", ascii "2")] [1, 2]) = .ok request ∧
      RequestWellFormed (getHeaders [(ascii "content-length", ascii "2")]) 2 := by
  have haccepted : (acceptRequest uriTexts (getFrames [(ascii "content-length", ascii "2")]
    [1, 2])).map H3Request.body = .ok [1, 2] := by decide +kernel
  obtain ⟨request, hrequest, -⟩ := Outcome.map_eq_ok.mp haccepted
  obtain ⟨headers, hread, -, hiff⟩ := accepted_well_formed_iff _ _ _ hrequest
  obtain rfl : getHeaders [(ascii "content-length", ascii "2")] = headers :=
    congrArg Prod.fst (Except.ok.inj hread)
  exact ⟨request, hrequest, hiff.mpr (by decide +kernel)⟩

def malformed : HeaderList :=
  [(ascii "Host", ascii "a"), (ascii "transfer-encoding", ascii "chunked"),
    (ascii "content-length", ascii "5")]

theorem malformed_request_accepted :
    (acceptRequest uriTexts (getFrames malformed [])).map H3Request.body = .ok [] ∧
    Server.readRequest (getFrames malformed []) = .ok (getHeaders malformed, []) ∧
    ¬ LowerCase (getHeaders malformed) ∧ ¬ NoConnectionSpecific (getHeaders malformed) ∧
    ¬ LengthsAgree (getHeaders malformed) 0 ∧ ¬ RequestWellFormed (getHeaders malformed) 0 := by
  have hlower : ¬ LowerCase (getHeaders malformed) := by decide +kernel
  exact ⟨by decide +kernel, rfl, hlower, by decide +kernel, by decide +kernel,
    fun h => hlower h.lowerCase⟩

/-! ## The client -/

structure H3Priority where
  urgency : Fin 8
  incremental : Bool

def H3Priority.asHeaderValue (priority : H3Priority) : Bytes :=
  ascii "u=" ++ decimal priority.urgency ++ if priority.incremental then ascii ", i" else []

def visibleHeaders (headers : HeaderMap) : HeaderList :=
  headers.entries.filterMap fun h => (toStr h.2).map fun value => (h.1, value)

def addedHeaders (priority : Option H3Priority) (sent : HeaderList) : HeaderList :=
  (if sent.any fun e => e.1 == ascii "accept-encoding" then []
    else [(ascii "accept-encoding", ascii "gzip, br, zstd")]) ++
  if sent.any fun e => eqIgnoreAsciiCase e.1 (ascii "priority") then []
  else (priority.map fun p => (ascii "priority", p.asHeaderValue)).toList

def requestIntoH3Parts (priority : Option H3Priority) (request : H3Request) :
    HeaderList × Option Bytes :=
  let authority := (request.uri.authority.map Http.Client.Authority.text).getD []
  let sent := visibleHeaders request.headers
  ([(ascii ":method", request.method), (ascii ":path", request.uri.pathAndQuery.getD (ascii "/")),
      (ascii ":scheme", request.uri.scheme.getD (ascii "https"))] ++
    (if authority.isEmpty then [] else [(ascii ":authority", authority)]) ++
    (sent ++ addedHeaders priority sent),
    if request.body.isEmpty then none else some request.body)

/-- A request that the client accepts: the URI of a CONNECT request is an authority, any other
is absolute. A URI is parsed back from its parts. -/
structure Acceptable (uris : UriParser) (request : H3Request) : Prop where
  method : isMethod request.method = true
  names : ∀ e ∈ request.headers.entries, IsHeaderName e.1
  visible : ∀ e ∈ request.headers.entries, toStr e.2 = some e.2
  uri : ∃ authority, request.uri.authority = some authority ∧ authority.text ≠ [] ∧
    if request.method = connectMethod then
      request.uri.scheme = none ∧ request.uri.pathAndQuery = none ∧
        uris.parse authority.text = .ok request.uri
    else
      ∃ scheme ∈ [ascii "http", ascii "https"], ∃ path, request.uri.scheme = some scheme ∧
        request.uri.pathAndQuery = some path ∧
        uris.build scheme authority.text path = .ok request.uri

theorem collectPseudoHeaders_regular {headers : HeaderList}
    (h : ∀ e ∈ headers, isPseudo e.1 = false) (slots : RequestPseudoHeaders) (saw : Bool) :
    collectPseudoHeaders slots saw headers = .ok slots := by
  induction headers generalizing saw with
  | nil => rfl
  | cons e rest ih =>
    rw [List.forall_mem_cons] at h
    rw [collectPseudoHeaders, h.1]
    exact ih h.2 true

theorem pseudoName_facts (name : PseudoName) : isPseudo (ascii name.text) = true ∧
    PseudoName.ofBytes (ascii name.text) = some name := by
  cases name <;> decide +kernel

theorem collectPseudoHeaders_cons {slots : RequestPseudoHeaders} {name : PseudoName}
    (hfree : slots name = none) (value : Bytes) (rest : HeaderList) :
    collectPseudoHeaders slots false ((ascii name.text, value) :: rest) =
      collectPseudoHeaders (Function.update slots name (some value)) false rest := by
  rw [collectPseudoHeaders]
  simp [pseudoName_facts, setRequestPseudoHeader, hfree]

def plainHeaders (priority : Option H3Priority) (request : H3Request) : HeaderList :=
  request.headers.entries ++ addedHeaders priority request.headers.entries

theorem addedHeaders_mem {priority : Option H3Priority} {sent : HeaderList} {e : Bytes × Bytes}
    (h : e ∈ addedHeaders priority sent) :
    (e.1 = ascii "accept-encoding" ∨ e.1 = ascii "priority") ∧
      (∀ other ∈ sent, other.1 ≠ e.1) ∧ headerValue e.2 = some e.2 := by
  rw [addedHeaders, List.mem_append] at h
  rcases h with h | h
  · split at h
    · cases h
    · next hnone =>
      obtain rfl := List.mem_singleton.mp h
      refine ⟨Or.inl rfl, fun other hother heq => hnone ?_, by decide +kernel⟩
      exact List.any_eq_true.mpr ⟨other, hother, beq_iff_eq.mpr heq⟩
  · split at h
    · cases h
    · next hnone =>
      cases priority with
      | none => cases h
      | some priority =>
        obtain rfl := List.mem_singleton.mp h
        refine ⟨Or.inr rfl, fun other hother heq => hnone ?_, ?_⟩
        · exact List.any_eq_true.mpr ⟨other, hother, by rw [heq]; exact eqIgnoreAsciiCase_refl _⟩
        · obtain ⟨urgency, incremental⟩ := priority
          revert urgency incremental
          decide +kernel

theorem isHeaderName_toLower {name : Bytes} (h : IsHeaderName name) : name.map toLower = name := by
  rw [IsHeaderName, headerName] at h
  split at h
  · exact Option.some.inj h
  · cases h

theorem isPseudo_of_isHeaderName {name : Bytes} (h : IsHeaderName name) :
    isPseudo name = false := by
  cases name with
  | nil => rfl
  | cons b rest =>
    rw [IsHeaderName, headerName] at h
    split at h
    · next htoken =>
      rw [List.all_cons, Bool.and_eq_true] at htoken
      rw [isPseudo, Bool.eq_false_iff]
      intro hcolon
      obtain rfl : b = 0x3a := Option.some.inj (beq_iff_eq.mp hcolon)
      exact absurd htoken.2.2.1 (by decide +kernel)
    · cases h

def sentPseudo (request : H3Request) (authority : Bytes) : RequestPseudoHeaders
  | .method => some request.method
  | .scheme => some (request.uri.scheme.getD (ascii "https"))
  | .authority => some authority
  | .path => some (request.uri.pathAndQuery.getD (ascii "/"))

section RoundTrip

variable {uris : UriParser} {request : H3Request} (h : Acceptable uris request)
  (priority : Option H3Priority)
include h

theorem Acceptable.visibleHeaders :
    visibleHeaders request.headers = request.headers.entries := by
  have hvisible : ∀ e ∈ request.headers.entries,
      ((toStr e.2).map fun value => (e.1, value)) = some e := by
    intro e he
    rw [h.visible e he]
    rfl
  rw [H3.visibleHeaders, List.filterMap_congr hvisible, List.filterMap_some]

theorem Acceptable.plain :
    ∀ e ∈ plainHeaders priority request, IsHeaderName e.1 ∧ headerValue e.2 = some e.2 := by
  intro e he
  rcases List.mem_append.mp he with he | he
  · refine ⟨h.names e he, ?_⟩
    have hvisible := h.visible e he
    rw [toStr] at hvisible
    split at hvisible
    · next hall =>
      rw [List.all_eq_true] at hall
      exact if_pos (List.all_eq_true.mpr fun b hb => isValueByte_of_isVisibleByte (hall b hb))
    · cases hvisible
  · obtain ⟨hname, -, hvalue⟩ := addedHeaders_mem he
    refine ⟨?_, hvalue⟩
    rcases hname with hname | hname
    · rw [hname]
      decide +kernel
    · rw [hname]
      decide +kernel

theorem Acceptable.collect {authority : Http.Client.Authority}
    (hauthority : request.uri.authority = some authority) (hne : authority.text ≠ []) :
    collectPseudoHeaders (fun _ => none) false (requestIntoH3Parts priority request).1 =
        .ok (sentPseudo request authority.text) ∧
      ((requestIntoH3Parts priority request).1.filter fun e => !isPseudo e.1) =
        plainHeaders priority request := by
  have hplain : ∀ e ∈ plainHeaders priority request, isPseudo e.1 = false :=
    fun e he => isPseudo_of_isHeaderName (h.plain priority e he).1
  have hempty : authority.text.isEmpty = false := by simpa using hne
  have hsent : (requestIntoH3Parts priority request).1 =
      (ascii PseudoName.method.text, request.method) ::
      (ascii PseudoName.path.text, request.uri.pathAndQuery.getD (ascii "/")) ::
      (ascii PseudoName.scheme.text, request.uri.scheme.getD (ascii "https")) ::
      (ascii PseudoName.authority.text, authority.text) :: plainHeaders priority request := by
    simp [requestIntoH3Parts, hauthority, hempty, h.visibleHeaders, plainHeaders, PseudoName.text]
  rw [hsent]
  constructor
  · rw [collectPseudoHeaders_cons rfl, collectPseudoHeaders_cons rfl,
      collectPseudoHeaders_cons rfl, collectPseudoHeaders_cons rfl,
      collectPseudoHeaders_regular hplain]
    congr 1
    funext name
    cases name <;> rfl
  · simp only [List.filter_cons, (pseudoName_facts _).1, Bool.not_true, Bool.false_eq_true,
      if_false]
    exact List.filter_eq_self.mpr fun e he => by rw [hplain e he]; rfl

theorem Acceptable.buildHeaders_eq :
    buildHeaders "build request: " HeaderMap.empty (plainHeaders priority request) =
      .ok (request.headers.appendAll (addedHeaders priority request.headers.entries)) := by
  have hplain := h.plain priority
  have hnames : (plainHeaders priority request).map (fun e => (e.1.map toLower, e.2)) =
      plainHeaders priority request := by
    conv_rhs => rw [← List.map_id (plainHeaders priority request)]
    refine List.map_congr_left fun e he => ?_
    rw [isHeaderName_toLower (hplain e he).1]
    rfl
  rw [buildHeaders_ok _ fun e he => ⟨?_, (hplain e he).2⟩, hnames, plainHeaders,
    HeaderMap.appendAll, List.foldl_append]
  · exact congrArg (fun m => Except.ok (HeaderMap.appendAll m _)) request.headers.appendAll_entries
  · rw [isHeaderName_toLower (hplain e he).1]
    exact (hplain e he).1

theorem Acceptable.requestFromH3Parts_eq (hmethod : request.method ≠ connectMethod) :
    requestFromH3Parts uris (requestIntoH3Parts priority request).1
        ((requestIntoH3Parts priority request).2.getD []) =
      .ok { request with
        headers := request.headers.appendAll (addedHeaders priority request.headers.entries) } := by
  obtain ⟨authority, hauthority, hne, huri⟩ := h.uri
  obtain ⟨hcollect, hfilter⟩ := h.collect priority hauthority hne
  rw [if_neg hmethod] at huri
  obtain ⟨scheme, -, path, hscheme, hpath, hbuild⟩ := huri
  have hvalid : validateRequestPseudoHeaders (requestIntoH3Parts priority request).1 =
      .ok (sentPseudo request authority.text) := by
    simp [validateRequestPseudoHeaders, hcollect, checkPseudoHeaders, sentPseudo, hmethod,
      Except.map]
  have huri : requestUri uris request.method (sentPseudo request authority.text) =
      .ok request.uri := by
    simp [requestUri, hmethod, sentPseudo, hscheme, hpath, hbuild, Except.mapError,
      Outcome.ofExcept]
  have hbody : (requestIntoH3Parts priority request).2.getD [] = request.body := by
    cases hb : request.body <;> simp [requestIntoH3Parts, hb]
  have hname : sentPseudo request authority.text .method = some request.method := rfl
  simp [requestFromH3Parts, hvalid, hname, h.method, huri, hfilter, h.buildHeaders_eq, hbody,
    Outcome.ofExcept]
  rfl

end RoundTrip

/-- A request comes out of the server as it went into the client, with the headers the client
adds, if and only if it is not a CONNECT request. -/
theorem request_round_trip_iff (uris : UriParser) (priority : Option H3Priority)
    (request : H3Request) (h : Acceptable uris request) :
    (∃ added : HeaderList,
      (∀ e ∈ added, (e.1 = ascii "accept-encoding" ∨ e.1 = ascii "priority") ∧
        request.headers.containsKey e.1 = false) ∧
      requestFromH3Parts uris (requestIntoH3Parts priority request).1
          ((requestIntoH3Parts priority request).2.getD []) =
        .ok { request with headers := request.headers.appendAll added }) ↔
      request.method ≠ connectMethod := by
  constructor
  · rintro ⟨added, -, hok⟩ hconnect
    obtain ⟨authority, hauthority, hne, -⟩ := h.uri
    have hcollect := (h.collect priority hauthority hne).1
    obtain ⟨-, slots, hslots⟩ := requestFromH3Parts_ok hok
    simp [validateRequestPseudoHeaders, hcollect, checkPseudoHeaders, sentPseudo, hconnect,
      Except.map] at hslots
  · intro hmethod
    refine ⟨addedHeaders priority request.headers.entries, fun e he => ?_,
      h.requestFromH3Parts_eq priority hmethod⟩
    obtain ⟨hname, hnew, -⟩ := addedHeaders_mem he
    refine ⟨hname, Bool.eq_false_iff.mpr fun hkey => ?_⟩
    obtain ⟨other, hother, heq⟩ := (request.headers.containsKey_iff e.1).mp hkey
    exact hnew other hother heq

def getRequest : H3Request :=
  ⟨ascii "GET", ⟨some (ascii "https"), some ⟨ascii "a", ascii "a", none⟩, ascii "/",
    some (ascii "/")⟩, HeaderMap.empty.append (ascii "x") (ascii "1"), [1, 2]⟩

def connectRequest : H3Request :=
  ⟨connectMethod, ⟨none, some ⟨ascii "a:1", ascii "a:1", none⟩, [], none⟩, HeaderMap.empty, []⟩

theorem get_request_survives : ∃ added,
    requestFromH3Parts uriTexts (requestIntoH3Parts none getRequest).1
      ((requestIntoH3Parts none getRequest).2.getD []) =
      .ok { getRequest with headers := getRequest.headers.appendAll added } := by
  have hacceptable : Acceptable uriTexts getRequest := by
    refine ⟨by decide +kernel, by decide +kernel, by decide +kernel, _, rfl, by decide +kernel, ?_⟩
    rw [if_neg (by decide +kernel)]
    exact ⟨ascii "https", by decide +kernel, ascii "/", rfl, rfl, rfl⟩
  obtain ⟨added, -, hadded⟩ :=
    (request_round_trip_iff uriTexts none getRequest hacceptable).mpr (by decide +kernel)
  exact ⟨added, hadded⟩

/-- A CONNECT request is sent with `:path` and `:scheme`, for which the server rejects it. -/
theorem connect_request_rejected : Acceptable uriTexts connectRequest ∧
    requestFromH3Parts uriTexts (requestIntoH3Parts none connectRequest).1 [] =
      .error (messageError
        "CONNECT request must not include :scheme or :path pseudo-headers") := by
  refine ⟨⟨by decide +kernel, by decide +kernel, by decide +kernel, _, rfl, by decide +kernel, ?_⟩,
    by decide +kernel⟩
  rw [if_pos (show connectRequest.method = connectMethod from rfl)]
  exact ⟨rfl, rfl, rfl⟩

end Starfish.Http.H3
