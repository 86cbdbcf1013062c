import Starfish.Http.Client.Cookies

/-!
# Cookie scope

Which cookies a request carries after any sequence of responses and requests: the unexpired ones
whose scope the request is in, each as it was last set.
-/

namespace Starfish.Http.Client

open Quic (Bytes)
open KeyedStore (Change Current Tracks)

/-! ## Scopes -/

def UnderDomain (host domain : Bytes) : Prop :=
  host = domain ∨ ∃ labels, host = labels ++ 0x2e :: domain

def UnderPath (path cookiePath : Bytes) : Prop :=
  path = cookiePath ∨
    ∃ rest, path = cookiePath ++ rest ∧ (cookiePath.getLast? = some 0x2f ∨ rest.head? = some 0x2f)

/-- The domain that a `Set-Cookie` value names, by its last `Domain` attribute. -/
def domainAttribute (raw : Bytes) : Option Bytes :=
  (cookieSegments raw).tail.foldl (fun domain attr =>
    if (attributeParts attr).1 = ascii "domain" then (attributeParts attr).2.map normalizeDomain
    else domain) none

/-- Hosts for which a cookie with this domain, set by `setter`, is meant; without a domain it is
the setter only. -/
def InDomain (setter : Bytes) (domain : Option Bytes) (host : Bytes) : Prop :=
  match domain with
  | none => lowercase host = lowercase setter
  | some domain => UnderDomain (lowercase host) domain ∧ UnderDomain (lowercase setter) domain

/-- A request to this host is in the scope of a cookie that `setter` has set by the value
`raw`. -/
structure InScope (setter raw : Bytes) (cookie : StoredCookie) (host : Bytes) (uri : Uri) :
    Prop where
  secure : cookie.secure = true → uri.isHttps = true
  domain : InDomain setter (domainAttribute raw) host
  path : UnderPath uri.path cookie.path

theorem toLower_toLower (b : UInt8) : toLower (toLower b) = toLower b :=
  forall_byte (P := fun b => toLower (toLower b) = toLower b) (by decide +kernel) b

theorem lowercase_lowercase (s : Bytes) : lowercase (lowercase s) = lowercase s := by
  simp [lowercase, toLower_toLower]

theorem domainMatches_iff (host domain : Bytes) :
    domainMatches host domain = true ↔ UnderDomain (lowercase host) (lowercase domain) := by
  rw [domainMatches, Bool.or_eq_true, beq_iff_eq, List.isSuffixOf_iff_suffix, UnderDomain]
  simp only [List.IsSuffix, eq_comm]

theorem pathMatches_iff (path cookiePath : Bytes) :
    pathMatches path cookiePath = true ↔ UnderPath path cookiePath := by
  rw [pathMatches, UnderPath, Bool.or_eq_true, beq_iff_eq, Bool.and_eq_true,
    List.isPrefixOf_iff_prefix, Bool.or_eq_true, beq_iff_eq, beq_iff_eq]
  refine or_congr_right ⟨?_, ?_⟩
  · rintro ⟨⟨rest, rfl⟩, hboundary⟩
    refine ⟨rest, rfl, hboundary.imp_right fun h => ?_⟩
    rwa [List.getElem?_append_right (Nat.le_refl _), Nat.sub_self, ← List.head?_eq_getElem?] at h
  · rintro ⟨rest, rfl, hboundary⟩
    refine ⟨List.prefix_append _ _, hboundary.imp_right fun h => ?_⟩
    rwa [List.getElem?_append_right (Nat.le_refl _), Nat.sub_self, ← List.head?_eq_getElem?]

/-! ## What is read from a `Set-Cookie` value -/

def DomainRead (host : Bytes) (domain : Option Bytes) (found : CookieAttributes) : Prop :=
  match domain with
  | none => found.hostOnly = true ∧ found.domain = lowercase host
  | some domain =>
    found.hostOnly = false ∧ found.domain = domain ∧ lowercase domain = domain ∧
      UnderDomain (lowercase host) domain

variable {host defaultPath : Bytes} {secureOrigin : Bool} {found : CookieAttributes}

variable {domain : Option Bytes} {value setter : Bytes} {past : Int} {next : CookieJar}

theorem read_domain {next : CookieAttributes} {attr : Bytes} (h : DomainRead host domain found)
    (hread : found.read host defaultPath secureOrigin attr = some next) : DomainRead host
      (if (attributeParts attr).1 = ascii "domain" then (attributeParts attr).2.map normalizeDomain
        else domain) next := by
  unfold CookieAttributes.read at hread
  by_cases hname : (attributeParts attr).1 = ascii "domain"
  · simp only [hname] at hread ⊢
    obtain ⟨value, hvalue, hread⟩ := Option.bind_eq_some_iff.mp hread
    split at hread
    · cases hread
    · next hok =>
      cases hread
      rw [not_or, Bool.not_eq_false, domainMatches_iff] at hok
      have hlower : lowercase (normalizeDomain value) = normalizeDomain value :=
        lowercase_lowercase _
      rw [hvalue]
      exact ⟨rfl, rfl, hlower, hlower ▸ hok.2⟩
  · simp only [hname] at hread ⊢
    have hkeep : next.hostOnly = found.hostOnly ∧ next.domain = found.domain := by
      grind
    unfold DomainRead at h ⊢
    rw [hkeep.1, hkeep.2]
    exact h

theorem readAll_domain {attributes : List Bytes} {last : CookieAttributes}
    (h : DomainRead host domain found)
    (hread : attributes.foldlM (CookieAttributes.read host defaultPath secureOrigin) found = some last)
    : DomainRead host (attributes.foldl (fun domain attr =>
      if (attributeParts attr).1 = ascii "domain" then (attributeParts attr).2.map normalizeDomain
      else domain) domain) last := by
  induction attributes generalizing domain found with
  | nil =>
    cases hread
    exact h
  | cons attr rest ih =>
    obtain ⟨next, hnext, hrest⟩ := Option.bind_eq_some_iff.mp hread
    exact ih (read_domain h hnext) hrest

variable {b : UInt8} {s : Bytes}

theorem mem_of_mem_dropSpaces {measure : Bytes → Nat} {fuel : Nat}
    (h : b ∈ dropSpaces measure fuel s) : b ∈ s := by
  induction fuel generalizing s with
  | zero => exact h
  | succ fuel ih =>
    grind [dropSpaces]

theorem mem_of_mem_trim (h : b ∈ trim s) : b ∈ s := by
  rw [trim, trimEnd, List.mem_reverse] at h
  exact mem_of_mem_dropSpaces (List.mem_reverse.mp (mem_of_mem_dropSpaces h))

theorem mem_of_mem_splitOn {sep : UInt8} {part : Bytes} (hpart : part ∈ splitOn sep s)
    (h : b ∈ part) : b ∈ s := by
  induction s generalizing part with
  | nil =>
    grind [splitOn]
  | cons a rest ih =>
    rw [splitOn] at hpart
    split at hpart
    · grind
    · cases hsplit : splitOn sep rest with
      | nil => simp [hsplit] at hpart
      | cons first more =>
        grind [List.modifyHead_cons]

structure SetBy (setter raw : Bytes) (cookie : StoredCookie) : Prop where
  text : ∀ b ∈ cookie.name ++ cookie.value, b ∈ raw
  domain :
    match domainAttribute raw with
    | none => cookie.hostOnly = true ∧ cookie.domain = lowercase setter
    | some domain =>
      cookie.hostOnly = false ∧ cookie.domain = domain ∧ lowercase domain = domain ∧
        UnderDomain (lowercase setter) domain

variable {now : Int} {cookie : StoredCookie}

theorem cookieStoreOp_put {name : Bytes}
    (h : cookieStoreOp name value found now = .ok (.put cookie)) :
    cookie.name = name ∧ cookie.value = value ∧ cookie.domain = found.domain ∧
      cookie.hostOnly = found.hostOnly := by
  grind [cookieStoreOp]

variable {raw : Bytes}

theorem parseSetCookie_put
    (h : parseSetCookie raw host defaultPath secureOrigin now = .ok (some (.put cookie))) :
    SetBy host raw cookie := by
  unfold parseSetCookie at h
  split at h
  · cases h
  · next first attributes hsegments =>
    split at h
    · cases h
    · cases h
    · next name value _ hfirst =>
      split at h
      · cases h
      · next found hread =>
        obtain ⟨op, hop, hput⟩ := Outcome.map_eq_ok.mp h
        cases hput
        obtain ⟨rfl, rfl, hdomain, honly⟩ := cookieStoreOp_put hop
        constructor
        · intro b hb
          have hmem : first ∈ cookieSegments raw := by simp [hsegments]
          obtain ⟨part, hpart, rfl⟩ := List.mem_map.mp hmem
          refine mem_of_mem_splitOn hpart (mem_of_mem_trim ?_)
          rw [(splitOnce_eq_some hfirst).1]
          rcases List.mem_append.mp hb with hb | hb <;> simp [hb]
        · have hinitial : DomainRead host none (.initial host defaultPath) := ⟨rfl, rfl⟩
          have hall := readAll_domain hinitial hread
          grind [domainAttribute, DomainRead]

theorem matches_iff (h : SetBy setter raw cookie) (host : Bytes) (uri : Uri) :
    cookie.matches host uri.path uri.isHttps = true ↔ InScope setter raw cookie host uri := by
  have hdomain : (if cookie.hostOnly then eqIgnoreAsciiCase host cookie.domain
      else domainMatches host cookie.domain) = true ↔
      InDomain setter (domainAttribute raw) host := by
    have hread := h.domain
    unfold InDomain
    cases hattr : domainAttribute raw with
    | none =>
      rw [hattr] at hread
      rw [hread.1, if_pos rfl, hread.2, eqIgnoreAsciiCase, beq_iff_eq]
      grind [lowercase, lowercase_lowercase]
    | some domain =>
      rw [hattr] at hread
      rw [hread.1, if_neg Bool.false_ne_true, hread.2.1, domainMatches_iff, hread.2.2.1]
      exact (and_iff_left hread.2.2.2).symm
  have hsecure : (!cookie.secure || uri.isHttps) = true ↔
      (cookie.secure = true → uri.isHttps = true) := by
    cases cookie.secure <;> simp
  rw [StoredCookie.matches, Bool.and_eq_true, Bool.and_eq_true, hdomain, hsecure, pathMatches_iff]
  exact ⟨fun ⟨⟨hs, hd⟩, hp⟩ => ⟨hs, hd, hp⟩, fun ⟨hs, hd, hp⟩ => ⟨⟨hs, hd⟩, hp⟩⟩

/-! ## Runs -/

/-- What happens to a jar: a response is stored, or a request is prepared. -/
inductive JarEvent
  | store (uri : Uri) (headers : HeaderMap) (clock : Nat → Int)
  | apply (now : Int) (uri : Uri) (headers : HeaderMap)

abbrev CookieLog := List ((Bytes × Bytes) × Change StoredCookie (Bytes × Bytes × Bytes))

/-- The accepted ones of the `Set-Cookie` values that a host has sent, each stamped with the host
and the value. -/
def receivedValues (uri : Uri) (host : Bytes) (clock : Nat → Int) (i : Nat)
    (values : List Bytes) : CookieLog :=
  (values.zipIdx i).filterMap fun entry =>
    (toStr entry.1).bind fun raw =>
      match parseSetCookie raw host (defaultCookiePath uri) uri.isHttps (clock entry.2) with
      | .ok (some op) => some ((host, raw), op.change)
      | _ => none

namespace JarEvent

def run (jar : CookieJar) : JarEvent → Outcome HttpError CookieJar
  | store uri headers clock => jar.store uri headers clock
  | apply now uri headers => .ok (jar.apply now uri headers).1

def received : JarEvent → CookieLog
  | store uri headers clock =>
    match uri.host with
    | none => []
    | some host => receivedValues uri host clock 0 (headers.getAll (ascii "set-cookie"))
  | apply .. => []

def Before (now : Int) : JarEvent → Prop
  | store _ _ clock => ∀ i, clock i ≤ now
  | apply time _ _ => time ≤ now

end JarEvent

def runJar (jar : CookieJar) : List JarEvent → Outcome HttpError CookieJar
  | [] => .ok jar
  | event :: rest => (event.run jar).bind fun next => runJar next rest

def cookieLog (events : List JarEvent) : CookieLog := events.flatMap JarEvent.received

structure Kept (now : Int) (jar : CookieJar) (log : CookieLog) : Prop where
  tracks : Tracks StoredCookie.key StoredCookie.unexpired now jar.cookies log
  setBy : ∀ stamp cookie, (stamp, .put cookie) ∈ log → SetBy stamp.1 stamp.2 cookie
  visible : ∀ entry ∈ log, entry.1.2.all isVisibleByte = true

theorem unexpired_of_le (h : past ≤ now) (cookie : StoredCookie)
    (hlive : cookie.unexpired now = true) : cookie.unexpired past = true := by
  unfold StoredCookie.unexpired at hlive ⊢
  grind

variable {jar : CookieJar} {log : CookieLog}

theorem Kept.removeExpired (h : Kept now jar log) (hpast : past ≤ now) :
    Kept now (jar.removeExpired past) log :=
  ⟨h.tracks.purge fun cookie => unexpired_of_le hpast cookie, h.setBy, h.visible⟩

theorem Kept.change (h : Kept now jar log) {op : CookieStoreOp}
    (hop : ∀ cookie, op = .put cookie → SetBy host raw cookie) (hraw : raw.all isVisibleByte = true)
    :
    Kept now (jar.change op) (log ++ [((host, raw), op.change)]) := by
  constructor
  · exact h.tracks.change _ _
  · intro stamp cookie hmem
    rcases List.mem_append.mp hmem with hmem | hmem
    · exact h.setBy stamp cookie hmem
    · rw [List.mem_singleton, Prod.mk.injEq] at hmem
      rw [hmem.1]
      refine hop cookie ?_
      cases op with
      | put stored =>
        cases hmem.2
        rfl
      | delete _ _ _ => cases hmem.2
  · grind [cases Kept]

theorem toStr_eq_some (h : toStr value = some raw) : raw.all isVisibleByte = true := by
  grind [toStr]

theorem Kept.storeValues {uri : Uri} {clock : Nat → Int} (hclock : ∀ i, clock i ≤ now)
    {values : List Bytes} {i : Nat} (h : Kept now jar log)
    (hstore : jar.storeValues uri host clock i values = .ok next) :
    Kept now next (log ++ receivedValues uri host clock i values) := by
  induction values generalizing i jar log with
  | nil =>
    cases hstore
    simpa [receivedValues] using h.removeExpired (hclock i)
  | cons value rest ih =>
    rw [CookieJar.storeValues] at hstore
    rw [receivedValues, List.zipIdx_cons, List.filterMap_cons]
    cases hraw : toStr value with
    | none =>
      rw [hraw] at hstore
      exact ih h hstore
    | some raw =>
      rw [hraw] at hstore
      obtain ⟨op, hparse, hstore⟩ := Outcome.bind_eq_ok.mp hstore
      simp only [Option.bind_some, hparse]
      cases op with
      | none => exact ih h hstore
      | some op =>
        have hput : ∀ cookie, op = .put cookie → SetBy host raw cookie := by
          grind [parseSetCookie_put]
        have hnext := ih (h.change hput (toStr_eq_some hraw)) hstore
        rwa [List.append_assoc] at hnext

theorem Kept.event (h : Kept now jar log) {event : JarEvent}
    (hbefore : event.Before now) (hrun : event.run jar = .ok next) :
    Kept now next (log ++ event.received) := by
  cases event with
  | store uri headers clock =>
    rw [JarEvent.run, CookieJar.store] at hrun
    rw [JarEvent.received]
    cases hhost : uri.host with
    | none =>
      grind
    | some host =>
      rw [hhost] at hrun
      exact h.storeValues hbefore hrun
  | apply time uri headers =>
    cases hrun
    rw [JarEvent.received, List.append_nil, CookieJar.apply]
    split
    · exact h
    · split
      · exact h
      · dsimp only
        split
        · exact h.removeExpired hbefore
        · split <;> exact h.removeExpired hbefore

theorem Kept.run {events : List JarEvent} {last : CookieJar} (h : Kept now jar log)
    (hbefore : ∀ event ∈ events, event.Before now) (hrun : runJar jar events = .ok last) :
    Kept now last (log ++ cookieLog events) := by
  induction events generalizing jar log with
  | nil =>
    cases hrun
    simpa [cookieLog] using h
  | cons event rest ih =>
    rw [List.forall_mem_cons] at hbefore
    obtain ⟨next, hnext, hrest⟩ := Outcome.bind_eq_ok.mp hrun
    have hlast := ih (h.event hbefore.1 hnext) hbefore.2 hrest
    rwa [List.append_assoc] at hlast

theorem kept_empty (now : Int) : Kept now .empty [] :=
  ⟨KeyedStore.tracks_nil now, nofun, nofun⟩

/-! ## What a request carries -/

def CookieJar.sent (jar : CookieJar) (now : Int) (host : Bytes) (uri : Uri) : List StoredCookie :=
  (jar.removeExpired now).matching host uri

theorem pairwise_matching (jar : CookieJar) (host : Bytes) (uri : Uri) :
    (jar.matching host uri).Pairwise fun a b => b.path.length ≤ a.path.length := by
  exact List.pairwise_insertionSort _ _

theorem nodup_matching (jar : CookieJar) (host : Bytes) (uri : Uri) :
    (jar.matching host uri).Nodup :=
  (List.perm_insertionSort _ _).nodup_iff.mpr (jar.unique.of_map.filter _)

theorem Kept.mem_sent (h : Kept now jar log) (host : Bytes) (uri : Uri) (cookie : StoredCookie) :
    cookie ∈ jar.sent now host uri ↔
      ∃ setter raw, Current StoredCookie.key log (setter, raw) cookie ∧
        cookie.unexpired now = true ∧ InScope setter raw cookie host uri := by
  have hscope : ∀ {setter raw}, Current StoredCookie.key log (setter, raw) cookie →
      (cookie.matches host uri.path uri.isHttps = true ↔ InScope setter raw cookie host uri) := by
    intro setter raw hcurrent
    obtain ⟨before, after, hlog, -⟩ := hcurrent
    grind [cases Kept, matches_iff]
  unfold CookieJar.sent CookieJar.matching CookieJar.removeExpired
  rw [List.mem_insertionSort, List.mem_filter, List.mem_filter]
  constructor
  · rintro ⟨⟨hmem, hlive⟩, hmatch⟩
    obtain ⟨⟨setter, raw⟩, hcurrent⟩ := (h.tracks cookie hlive).mp hmem
    grind
  · rintro ⟨setter, raw, hcurrent, hlive, hin⟩
    exact ⟨⟨(h.tracks cookie hlive).mpr ⟨_, hcurrent⟩, hlive⟩, (hscope hcurrent).mpr hin⟩

theorem mem_intercalate {sep : Bytes} {parts : List Bytes} (h : b ∈ sep.intercalate parts) :
    b ∈ sep ∨ ∃ part ∈ parts, b ∈ part := by
  induction parts with
  | nil => simp at h
  | cons part rest ih =>
    cases rest with
    | nil => exact .inr ⟨part, by simp, by simpa [List.intercalate] using h⟩
    | cons next more =>
      grind [List.intercalate_cons_cons]

theorem Kept.render_sent (h : Kept now jar log) (host : Bytes) (uri : Uri) :
    headerValue (CookieJar.render (jar.sent now host uri)) =
      some (CookieJar.render (jar.sent now host uri)) := by
  refine if_pos (List.all_eq_true.mpr fun b hb => isValueByte_of_isVisibleByte ?_)
  rcases mem_intercalate hb with hsep | ⟨part, hpart, hb⟩
  · grind [ascii, isVisibleByte]
  · obtain ⟨cookie, hcookie, rfl⟩ := List.mem_map.mp hpart
    obtain ⟨setter, raw, ⟨before, after, hlog, -⟩, -⟩ := (h.mem_sent host uri cookie).mp hcookie
    have hmem : ((setter, raw), .put cookie) ∈ log := by simp [hlog]
    have hvisible := List.all_eq_true.mp (h.visible _ hmem)
    have htext := (h.setBy _ _ hmem).text
    grind [ascii, isVisibleByte]

/-- The `Cookie` header of a request that comes without one. -/
theorem Kept.apply_header (h : Kept now jar log) {uri : Uri} {headers : HeaderMap}
    (hhost : uri.host = some host) (hcookie : headers.containsKey (ascii "cookie") = false) :
    (jar.apply now uri headers).2.getAll (ascii "cookie") =
      if jar.sent now host uri = [] then [] else [CookieJar.render (jar.sent now host uri)] := by
  have hnone := HeaderMap.getAll_of_not_containsKey hcookie
  have hvalue := h.render_sent host uri
  unfold CookieJar.sent at hvalue ⊢
  simp only [CookieJar.apply, hcookie, hhost, hvalue, Bool.false_eq_true, if_false]
  split
  · exact hnone
  · rw [HeaderMap.getAll_append, hnone, if_pos rfl, List.nil_append]

/-! ## Hosts that are addresses -/

def isIpv4Octet (part : Bytes) : Bool :=
  !part.isEmpty && part.length ≤ 3 && part.all isDigit && (parseUnsigned 10 255 part).isSome

def isIpAddress (host : Bytes) : Bool :=
  ((splitOn 0x2e host).length == 4 && (splitOn 0x2e host).all isIpv4Octet) ||
    (host.head? == some 0x5b && host.getLast? == some 0x5d)

theorem head_of_isIpAddress (h : isIpAddress host = true) :
    ∃ b rest, host = b :: rest ∧ toLower b ≠ 0x78 := by
  cases host with
  | nil => simp [isIpAddress, splitOn] at h
  | cons b rest =>
    refine ⟨b, rest, rfl, ?_⟩
    rw [isIpAddress, Bool.or_eq_true, Bool.and_eq_true, Bool.and_eq_true] at h
    rcases h with ⟨hlength, hall⟩ | ⟨hhead, -⟩
    · by_cases hdot : b = 0x2e
      · rw [hdot]
        decide
      · rw [splitOn, if_neg hdot] at hlength hall
        cases hsplit : splitOn 0x2e rest with
        | nil => simp [hsplit] at hlength
        | cons part more =>
          rw [hsplit, List.modifyHead_cons, List.all_cons, Bool.and_eq_true] at hall
          have hdigit : isDigit b = true := by
            grind [isIpv4Octet]
          exact forall_byte (P := fun b => isDigit b = true → toLower b ≠ 0x78)
            (by decide +kernel) b hdigit
    · rw [List.head?_cons, beq_iff_eq, Option.some.injEq] at hhead
      rw [hhead]
      decide

theorem inScope_subdomain {domain : Bytes} (h : SetBy setter raw cookie)
    (hdomain : domainAttribute raw = some domain) :
    ∃ uri host, uri.host = some host ∧ InScope setter raw cookie host uri ∧
      lowercase host = ascii "x." ++ domain := by
  have hread := h.domain
  rw [hdomain] at hread
  have hlower : lowercase (ascii "x." ++ domain) = ascii "x." ++ domain := by
    exact congrArg (ascii "x." ++ ·) hread.2.2.1
  refine ⟨⟨some (ascii "https"), some ⟨[], ascii "x." ++ domain, none⟩, cookie.path, none⟩,
    ascii "x." ++ domain, rfl, ⟨fun _ => rfl, ?_, .inl rfl⟩, hlower⟩
  rw [hdomain, InDomain, hlower]
  exact ⟨.inr ⟨ascii "x", rfl⟩, hread.2.2.2⟩

def httpsUri (host path : String) : Uri :=
  ⟨some (ascii "https"), some ⟨ascii host, ascii host, none⟩, ascii path, some (ascii path)⟩

def setCookieFrom (host value : String) : JarEvent :=
  .store (httpsUri host "/") (HeaderMap.empty.append (ascii "set-cookie") (ascii value)) fun _ => 0

end Starfish.Http.Client
