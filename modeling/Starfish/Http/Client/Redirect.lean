import Starfish.Http.Client.Cookies

/-!
# Redirects

The loop of the HTTP client that follows redirects. Connecting, the exchange on the connection
and the URI syntax of the `http` crate are parameters; the requests that are issued on the way
are recorded.
-/

namespace Starfish.Http.Client

open Quic (Bytes)

structure HopRequest where
  method : Bytes
  uri : Uri
  headers : HeaderMap
  body : Bytes
deriving DecidableEq

def hostHeader : Bytes := ascii "host"

def authorizationHeader : Bytes := ascii "authorization"

def cookieHeader : Bytes := ascii "cookie"

/-- Scheme, host and port agree. -/
def isSameOrigin (a b : Uri) : Bool :=
  a.scheme == b.scheme && a.host == b.host && a.port == b.port

def keptHeaders (sameOrigin : Bool) (headers : HeaderMap) : List (Bytes × Bytes) :=
  headers.entries.filter fun h =>
    h.1 != hostHeader && !(!sameOrigin && (h.1 == authorizationHeader || h.1 == cookieHeader))

def buildRedirectRequest (method : Bytes) (uri : Uri) (originalHeaders : HeaderMap)
    (originalUri : Uri) (body : Bytes) : Except HttpError HopRequest :=
  let headers := HeaderMap.empty.appendAll
    (keptHeaders (isSameOrigin originalUri uri) originalHeaders)
  match uri.authority with
  | none => .ok ⟨method, uri, headers, body⟩
  | some authority =>
    match headerValue authority.text with
    | some value => .ok ⟨method, uri, headers.append hostHeader value, body⟩
    | none => .error (.parse "build request: " (ascii "failed to parse header value"))

/-- Resolve a redirect `Location` against the current request URI: absolute URIs,
protocol-relative URIs, absolute paths and relative paths. -/
def resolveRedirectUri (parseUri : Bytes → Except Bytes Uri) (base : Uri) (location : Bytes) :
    Except HttpError Uri :=
  let parse (text : Bytes) : Except HttpError Uri :=
    (parseUri text).mapError fun e => .parse "invalid redirect URI: " e
  let scheme := base.scheme.getD (ascii "http")
  if (ascii "http://").isPrefixOf location || (ascii "https://").isPrefixOf location then
    parse location
  else if (ascii "//").isPrefixOf location then parse (scheme ++ ascii ":" ++ location)
  else
    let authority := (base.authority.map Authority.text).getD []
    let path :=
      if (ascii "/").isPrefixOf location then location
      else match rsplitOnce 0x2f base.path with
        | some (dir, _) => dir ++ ascii "/" ++ location
        | none => ascii "/" ++ location
    parse (scheme ++ ascii "://" ++ authority ++ path)

/-! ## One exchange -/

structure HttpClient where
  maxRedirects : Nat := 10
  /-- An HTTP proxy is configured. -/
  httpProxy : Bool := false
  cookieJar : CookieJar := .empty

/-- What happens outside the client during one exchange. -/
structure Answer where
  /-- A pooled connection or a new one. -/
  connect : Except HttpError Unit
  /-- When the cookies are applied. -/
  now : Int
  /-- What `H1Client::send` returns. -/
  result : Outcome HttpError Response
  /-- The readings of the clock while the cookies of the response are stored. -/
  clock : Nat → Int

/-- A request that was handed to a connection, with the URI of its hop and the jar that its
cookies were taken from. -/
structure Issued where
  uri : Uri
  jar : CookieJar
  now : Int
  request : HopRequest

def prepareRequestForTransport (parseUri : Bytes → Except Bytes Uri) (request : HopRequest)
    (httpProxy isTls : Bool) : Except HttpError HopRequest :=
  if httpProxy && !isTls then .ok request
  else match parseUri (request.uri.pathAndQuery.getD (ascii "/")) with
    | .ok uri => .ok { request with uri }
    | .error e => .error (.parse "invalid request path: " e)

/-- The result of sending, the jar afterwards and the requests that were issued. -/
structure Sent where
  result : Outcome HttpError Response
  jar : CookieJar
  issued : List Issued

def sendSingle (parseUri : Bytes → Except Bytes Uri) (httpProxy : Bool) (jar : CookieJar)
    (request : HopRequest) (answer : Answer) : Sent :=
  let uri := request.uri
  match uri.host with
  | none => ⟨.error (.parse "missing host in URI" []), jar, []⟩
  | some _ =>
    match answer.connect with
    | .error e => ⟨.error e, jar, []⟩
    | .ok () =>
      match prepareRequestForTransport parseUri request httpProxy uri.isHttps with
      | .error e => ⟨.error e, jar, []⟩
      | .ok request =>
        let applied := jar.apply answer.now uri request.headers
        let issued := [⟨uri, jar, answer.now, { request with headers := applied.2 }⟩]
        match answer.result with
        | .error e => ⟨.error e, applied.1, issued⟩
        | .panic => ⟨.panic, applied.1, issued⟩
        | .ok response =>
          match applied.1.store uri response.headers answer.clock with
          | .ok jar => ⟨.ok response, jar, issued⟩
          | .error e => ⟨.error e, applied.1, issued⟩
          | .panic => ⟨.panic, applied.1, issued⟩

/-! ## The loop -/

def isRedirection (response : Response) : Bool := 300 ≤ response.status && response.status < 400

structure Hop where
  method : Bytes
  uri : Uri
  body : Bytes

def nextHop (parseUri : Bytes → Except Bytes Uri) (hop : Hop) (response : Response) :
    Except HttpError (Option Hop) :=
  match (response.headers.getAll (ascii "location")).head? with
  | none => .ok none
  | some value =>
    match toStr value with
    | none => .error (.parse "invalid Location header" [])
    | some location =>
      match resolveRedirectUri parseUri hop.uri location with
      | .error e => .error e
      | .ok uri =>
        if 301 ≤ response.status ∧ response.status ≤ 303 then
          if hop.method ≠ ascii "GET" ∧ hop.method ≠ ascii "HEAD" then
            .ok (some ⟨ascii "GET", uri, []⟩)
          else .ok (some { hop with uri })
        else if response.status = 307 ∨ response.status = 308 then .ok (some { hop with uri })
        else .ok none

section Loop

variable (parseUri : Bytes → Except Bytes Uri) (httpProxy : Bool) (originalUri : Uri)
  (originalHeaders : HeaderMap) (answers : Nat → Answer)

def sendHop (k : Nat) (hop : Hop) (jar : CookieJar) : Sent :=
  match buildRedirectRequest hop.method hop.uri originalHeaders originalUri hop.body with
  | .error e => ⟨.error e, jar, []⟩
  | .ok request => sendSingle parseUri httpProxy jar request (answers k)

def sendLoop : Nat → Nat → Hop → CookieJar → Sent
  | 0, k, hop, jar => sendHop parseUri httpProxy originalUri originalHeaders answers k hop jar
  | redirectsRemaining + 1, k, hop, jar =>
    let sent := sendHop parseUri httpProxy originalUri originalHeaders answers k hop jar
    match sent.result with
    | .error _ | .panic => sent
    | .ok response =>
      if isRedirection response then
        match nextHop parseUri hop response with
        | .error e => { sent with result := .error e }
        | .ok none => sent
        | .ok (some next) =>
          let rest := sendLoop redirectsRemaining (k + 1) next sent.jar
          { rest with issued := sent.issued ++ rest.issued }
      else sent

end Loop

/-- Send a request, following redirects; `answers` is what happens at each hop. -/
def HttpClient.send (parseUri : Bytes → Except Bytes Uri) (client : HttpClient)
    (request : HopRequest) (answers : Nat → Answer) : Sent :=
  sendLoop parseUri client.httpProxy request.uri request.headers answers client.maxRedirects 0
    ⟨request.method, request.uri, request.body⟩ client.cookieJar

/-! ## The headers of a hop -/

def Uri.effectivePort (uri : Uri) : Nat := uri.port.getD (if uri.isHttps then 443 else 80)

structure SameOrigin (a b : Uri) : Prop where
  scheme : a.scheme = b.scheme
  host : a.host = b.host
  port : a.effectivePort = b.effectivePort

theorem sameOrigin_of_isSameOrigin {a b : Uri} (h : isSameOrigin a b = true) : SameOrigin a b := by
  unfold isSameOrigin at h
  rw [Bool.and_eq_true, Bool.and_eq_true, beq_iff_eq, beq_iff_eq, beq_iff_eq] at h
  refine ⟨h.1.1, h.1.2, ?_⟩
  unfold Uri.effectivePort Uri.isHttps
  rw [h.2, h.1.1]

/-- A request at another origin carries no `Authorization` of the caller, and the `Cookie` header
that the jar gives a request without headers. The `Host` header is the authority of the hop. -/
structure Confined (originalUri : Uri) (issued : Issued) : Prop where
  credentials : issued.request.headers.getAll authorizationHeader ≠ [] ∨
    issued.request.headers.getAll cookieHeader ≠
      (issued.jar.apply issued.now issued.uri .empty).2.getAll cookieHeader →
    SameOrigin originalUri issued.uri
  host : ∃ authority, issued.uri.authority = some authority ∧
    issued.request.headers.getAll hostHeader = [authority.text]

variable {name : Bytes} {headers : HeaderMap} {hop next : Hop} {issued : Issued}

theorem apply_getAll_of_ne (jar : CookieJar) (now : Int) (uri : Uri) (headers : HeaderMap)
    (hname : name ≠ cookieHeader) :
    (jar.apply now uri headers).2.getAll name = headers.getAll name := by
  unfold CookieJar.apply
  split
  · rfl
  · split
    · rfl
    · dsimp only
      split
      · rfl
      · split
        · rw [HeaderMap.getAll_append]
          change headers.getAll name ++ (if cookieHeader = name then _ else _) = _
          rw [if_neg (Ne.symm hname), List.append_nil]
        · rfl

theorem containsKey_eq_false_of_getAll
    (h : headers.getAll name = []) : headers.containsKey name = false := by
  rw [Bool.eq_false_iff, ne_eq, HeaderMap.containsKey_iff]
  rintro ⟨e, he, rfl⟩
  have hmem : e.2 ∈ headers.getAll e.1 :=
    List.mem_map_of_mem (List.mem_filter.mpr ⟨he, by simp⟩)
  rw [h] at hmem
  cases hmem

/-- A request without cookies gets the same `Cookie` header as one without headers. -/
theorem apply_getAll_cookie (jar : CookieJar) (now : Int) (uri : Uri)
    (h : headers.getAll cookieHeader = []) : (jar.apply now uri headers).2.getAll cookieHeader =
      (jar.apply now uri .empty).2.getAll cookieHeader := by
  have hnone := containsKey_eq_false_of_getAll h
  have hempty : HeaderMap.empty.getAll cookieHeader = [] := rfl
  unfold CookieJar.apply
  rw [show ascii "cookie" = cookieHeader from rfl, hnone, containsKey_eq_false_of_getAll hempty,
    if_neg Bool.false_ne_true, if_neg Bool.false_ne_true]
  split
  · exact h.trans hempty.symm
  · dsimp only
    split
    · exact h.trans hempty.symm
    · split
      · rw [HeaderMap.getAll_append, HeaderMap.getAll_append, h, hempty]
      · exact h.trans hempty.symm

/-- Of the headers of the caller, `Host` is never kept, and credentials only at the original
origin. -/
theorem keptHeaders_getAll {sameOrigin : Bool} (h : name = hostHeader ∨
      sameOrigin = false ∧ (name = authorizationHeader ∨ name = cookieHeader)) :
    (HeaderMap.empty.appendAll (keptHeaders sameOrigin headers)).getAll name = [] := by
  rw [HeaderMap.getAll_appendAll, keptHeaders, List.filter_filter]
  have hempty : HeaderMap.empty.getAll name = [] := rfl
  rw [hempty, List.nil_append, List.map_eq_nil_iff, List.filter_eq_nil_iff]
  intro e _ hkept
  rw [Bool.and_eq_true, Bool.and_eq_true, beq_iff_eq] at hkept
  obtain ⟨rfl, hhost, hcredentials⟩ := hkept
  rcases h with h | ⟨hsame, h | h⟩
  · simp [h] at hhost
  · simp [hsame, h] at hcredentials
  · simp [hsame, h] at hcredentials

theorem headerValue_eq_some {text value : Bytes} (h : headerValue text = some value) :
    value = text := by
  grind [headerValue]

theorem buildRedirectRequest_headers {method body : Bytes} {uri originalUri : Uri}
    {originalHeaders : HeaderMap} {request : HopRequest}
    (h : buildRedirectRequest method uri originalHeaders originalUri body = .ok request) :
    request.method = method ∧ request.uri = uri ∧ request.body = body ∧
      (isSameOrigin originalUri uri = false →
        request.headers.getAll authorizationHeader = [] ∧
          request.headers.getAll cookieHeader = []) ∧
      ∀ authority, uri.authority = some authority →
        request.headers.getAll hostHeader = [authority.text] := by
  have hkept := fun {name} =>
    @keptHeaders_getAll name originalHeaders (isSameOrigin originalUri uri)
  unfold buildRedirectRequest at h
  dsimp only at h
  split at h
  · next hauthority =>
    grind
  · next authority hauthority =>
    split at h
    · next value hvalue =>
      cases h
      refine ⟨rfl, rfl, rfl, fun hsame => ⟨?_, ?_⟩, fun authority' hsome => ?_⟩
      · rw [HeaderMap.getAll_append, hkept (.inr ⟨hsame, .inl rfl⟩), if_neg (by decide +kernel),
          List.append_nil]
      · rw [HeaderMap.getAll_append, hkept (.inr ⟨hsame, .inr rfl⟩), if_neg (by decide +kernel),
          List.append_nil]
      · rw [hauthority] at hsome
        cases hsome
        rw [HeaderMap.getAll_append, hkept (.inl rfl), if_pos rfl, List.nil_append,
          headerValue_eq_some hvalue]
    · cases h

theorem prepareRequestForTransport_ok {parseUri : Bytes → Except Bytes Uri}
    {request prepared : HopRequest} {httpProxy isTls : Bool}
    (h : prepareRequestForTransport parseUri request httpProxy isTls = .ok prepared) :
    prepared.method = request.method ∧ prepared.headers = request.headers ∧
      prepared.body = request.body := by
  grind [prepareRequestForTransport]

/-! ## What is issued -/

theorem sendSingle_issued (parseUri : Bytes → Except Bytes Uri) (httpProxy : Bool)
    (jar : CookieJar) (request : HopRequest) (answer : Answer) :
    let sent := sendSingle parseUri httpProxy jar request answer
    (sent.issued = [] ∧ ∃ e, sent.result = .error e) ∨
      ∃ prepared : HopRequest, prepared.method = request.method ∧
        prepared.headers = (jar.apply answer.now request.uri request.headers).2 ∧
        prepared.body = request.body ∧ request.uri.host ≠ none ∧
        sent.issued = [⟨request.uri, jar, answer.now, prepared⟩] := by
  unfold sendSingle
  dsimp only
  split
  · exact .inl ⟨rfl, _, rfl⟩
  · next host hhost =>
    split
    · exact .inl ⟨rfl, _, rfl⟩
    · split
      · exact .inl ⟨rfl, _, rfl⟩
      · next prepared hprepared =>
        obtain ⟨hmethod, hheaders, hbody⟩ := prepareRequestForTransport_ok hprepared
        refine .inr ⟨{ prepared with
          headers := (jar.apply answer.now request.uri prepared.headers).2 }, hmethod,
          by rw [hheaders], hbody, by simp [hhost], ?_⟩
        split
        · rfl
        · rfl
        · split <;> rfl

theorem sendHop_issued (parseUri : Bytes → Except Bytes Uri) (httpProxy : Bool)
    (originalUri : Uri) (originalHeaders : HeaderMap) (answers : Nat → Answer) (k : Nat) (hop : Hop)
    (jar : CookieJar) :
    let sent := sendHop parseUri httpProxy originalUri originalHeaders answers k hop jar
    (sent.issued = [] ∧ ∃ e, sent.result = .error e) ∨
      ∃ issued, sent.issued = [issued] ∧ issued.request.method = hop.method ∧
        issued.request.body = hop.body ∧ Confined originalUri issued := by
  unfold sendHop
  cases hbuild : buildRedirectRequest hop.method hop.uri originalHeaders originalUri hop.body with
  | error e => exact .inl ⟨rfl, _, rfl⟩
  | ok request =>
    obtain ⟨hmethod, huri, hbody, hcredentials, hhost⟩ := buildRedirectRequest_headers hbuild
    rcases sendSingle_issued parseUri httpProxy jar request (answers k) with hnone | hone
    · exact .inl hnone
    · obtain ⟨prepared, hmethod', hheaders, hbody', hsome, hissued⟩ := hone
      refine .inr ⟨_, hissued, hmethod'.trans hmethod, hbody'.trans hbody, ?_, ?_⟩
      · intro hleak
        rw [huri] at hleak ⊢
        by_contra horigin
        have hsame : isSameOrigin originalUri hop.uri = false := by
          rw [Bool.eq_false_iff]
          exact fun h => horigin (sameOrigin_of_isSameOrigin h)
        obtain ⟨hauthorization, hcookie⟩ := hcredentials hsame
        dsimp only at hleak
        rw [hheaders, apply_getAll_of_ne _ _ _ _ (by decide +kernel), hauthorization, huri,
          apply_getAll_cookie _ _ _ hcookie] at hleak
        simp at hleak
      · rw [huri] at hsome ⊢
        cases hauthority : hop.uri.authority with
        | none => exact absurd (congrArg (Option.map Authority.host) hauthority) hsome
        | some authority =>
          refine ⟨authority, rfl, ?_⟩
          dsimp only
          rw [hheaders, apply_getAll_of_ne _ _ _ _ (by decide +kernel)]
          exact hhost authority hauthority

theorem nextHop_some {parseUri : Bytes → Except Bytes Uri} {response : Response}
    (h : nextHop parseUri hop response = .ok (some next)) :
    next.body = [] ∨ next.method = hop.method ∧ next.body = hop.body := by
  unfold nextHop at h
  split at h
  · cases h
  · split at h
    · cases h
    · split at h
      · cases h
      · split at h
        · split at h <;> cases h
          · exact .inl rfl
          · exact .inr ⟨rfl, rfl⟩
        · split at h <;> cases h
          exact .inr ⟨rfl, rfl⟩

/-- Every request without the empty body has the first body, and so far all requests have had the
first method. -/
def BodyKept (method body : Bytes) (issued : List Issued) : Prop :=
  ∀ (k : Nat) (hop : Issued), issued[k]? = some hop →
    hop.request.body = [] ∨ hop.request.body = body ∧
      ∀ j ≤ k, ∀ earlier : Issued, issued[j]? = some earlier → earlier.request.method = method

theorem BodyKept.cons {rest : List Issued}
    (h : BodyKept next.method next.body rest) (hmethod : issued.request.method = hop.method)
    (hbody : issued.request.body = hop.body)
    (hnext : next.body = [] ∨ next.method = hop.method ∧ next.body = hop.body) :
    BodyKept hop.method hop.body (issued :: rest) := by
  intro k i hi
  cases k with
  | zero =>
    grind
  | succ k =>
    rcases h k i hi with hnil | ⟨hsame, hearlier⟩
    · exact .inl hnil
    · rcases hnext with hnil | ⟨hmethod', hbody'⟩
      · exact .inl (hsame.trans hnil)
      · refine .inr ⟨hsame.trans hbody', fun j hj earlier hget => ?_⟩
        cases j with
        | zero =>
          cases hget
          exact hmethod
        | succ j => exact (hearlier j (by omega) earlier hget).trans hmethod'

theorem bodyKept_singleton
    (hmethod : issued.request.method = hop.method) (hbody : issued.request.body = hop.body) :
    BodyKept hop.method hop.body [issued] := by
  have hnil : BodyKept hop.method hop.body [] := by
    intro k i hi
    simp at hi
  exact hnil.cons hmethod hbody (.inr ⟨rfl, rfl⟩)

theorem sendLoop_issued (parseUri : Bytes → Except Bytes Uri) (httpProxy : Bool)
    (originalUri : Uri) (originalHeaders : HeaderMap) (answers : Nat → Answer)
    (redirectsRemaining k : Nat) (hop : Hop) (jar : CookieJar) :
    let issued := (sendLoop parseUri httpProxy originalUri originalHeaders answers
      redirectsRemaining k hop jar).issued
    issued.length ≤ redirectsRemaining + 1 ∧ (∀ i ∈ issued, Confined originalUri i) ∧
      BodyKept hop.method hop.body issued := by
  induction redirectsRemaining generalizing k hop jar with
  | zero =>
    rcases sendHop_issued parseUri httpProxy originalUri originalHeaders answers k hop jar with
      ⟨hnone, -⟩ | ⟨issued, hone, hmethod, hbody, hconfined⟩
    · simp [sendLoop, hnone, BodyKept]
    · simp only [sendLoop, hone, List.length_singleton, List.mem_singleton, forall_eq]
      exact ⟨by omega, hconfined, bodyKept_singleton hmethod hbody⟩
  | succ remaining ih =>
    rcases sendHop_issued parseUri httpProxy originalUri originalHeaders answers k hop jar with
      ⟨hnone, e, he⟩ | ⟨issued, hone, hmethod, hbody, hconfined⟩
    · simp [sendLoop, he, hnone, BodyKept]
    · have hstop : ([issued] : List Issued).length ≤ remaining + 1 + 1 ∧
          (∀ i ∈ [issued], Confined originalUri i) ∧
            BodyKept hop.method hop.body [issued] :=
        ⟨by simp, by simpa using hconfined, bodyKept_singleton hmethod hbody⟩
      rw [sendLoop]
      dsimp only
      split
      · rwa [hone]
      · rwa [hone]
      · split
        · split
          · rwa [hone]
          · rwa [hone]
          · next next hnext =>
            obtain ⟨hlength, hall, hkept⟩ := ih (k + 1) next
              (sendHop parseUri httpProxy originalUri originalHeaders answers k hop jar).jar
            rw [hone]
            refine ⟨Nat.succ_le_succ hlength, List.forall_mem_cons.mpr ⟨hconfined, hall⟩, ?_⟩
            exact hkept.cons hmethod hbody (nextHop_some hnext)
        · rwa [hone]

/-- Redirects stop and do not leak credentials: whatever the servers answer, at most
`max_redirects + 1` requests are issued, `Authorization` and `Cookie` headers of the caller go to
the original scheme, host and port only, each `Host` header is the authority of its hop, and a
body is sent only as long as the method has not changed. -/
theorem redirects_confined (parseUri : Bytes → Except Bytes Uri) (client : HttpClient)
    (request : HopRequest) (answers : Nat → Answer) :
    let issued := (client.send parseUri request answers).issued
    issued.length ≤ client.maxRedirects + 1 ∧ (∀ hop ∈ issued, Confined request.uri hop) ∧
      BodyKept request.method request.body issued :=
  sendLoop_issued parseUri client.httpProxy request.uri request.headers answers
    client.maxRedirects 0 ⟨request.method, request.uri, request.body⟩ client.cookieJar

end Starfish.Http.Client
