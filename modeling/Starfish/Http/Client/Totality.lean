import Starfish.Http.Client.Cookies
import Starfish.Http.H1.Totality

/-!
# Hostile servers

What a server can send to make the client panic: a status line whose status code cuts a
character, and a cookie with a `Max-Age` that no instant can hold.
-/

namespace Starfish.Http.Client

open Quic (Bytes)
open H1 (StatusCodeCut ResponseParser MessageParser feedPieces_response_panics_iff)
open Incremental (feedPieces)

/-- The value sets a cookie that expires after the last instant there is. -/
def MaxAgeOverflows (raw responseHost defaultPath : Bytes) (secureOrigin : Bool) (now : Int) :
    Prop :=
  ∃ first attributes name value found age,
    cookieSegments raw = first :: attributes ∧ splitOnce 0x3d first = some (name, value) ∧
    name ≠ [] ∧
    attributes.foldlM (CookieAttributes.read responseHost defaultPath secureOrigin)
      (.initial responseHost defaultPath) = some found ∧
    found.maxAge = some age ∧ 0 < age ∧ instantMax < now + age

theorem cookieStoreOp_eq_panic_iff (name value : Bytes) (found : CookieAttributes) (now : Int) :
    cookieStoreOp name value found now = .panic ↔
      ∃ age, found.maxAge = some age ∧ 0 < age ∧ instantMax < now + age := by
  grind [cookieStoreOp]

theorem parseSetCookie_eq_panic_iff (raw host defaultPath : Bytes) (secureOrigin : Bool)
    (now : Int) :
    parseSetCookie raw host defaultPath secureOrigin now = .panic ↔
      MaxAgeOverflows raw host defaultPath secureOrigin now := by
  constructor
  · intro h
    unfold parseSetCookie at h
    split at h
    · cases h
    · next first attributes hsegments =>
      split at h
      · cases h
      · cases h
      · next name value hname hfirst =>
        split at h
        · cases h
        · next found hread =>
          obtain ⟨age, hage⟩ := (cookieStoreOp_eq_panic_iff _ _ _ _).mp (Outcome.map_eq_panic.mp h)
          exact ⟨first, attributes, name, value, found, age, hsegments, hfirst,
            hname, hread, hage⟩
  · rintro ⟨first, attributes, name, value, found, age, hsegments, hfirst, hname, hread, hage⟩
    have hpanic := (cookieStoreOp_eq_panic_iff name value found now).mpr ⟨age, hage⟩
    cases name with
    | nil => exact absurd rfl hname
    | cons b name => simp only [parseSetCookie, hsegments, hfirst, hread, hpanic, Outcome.map]

theorem parseSetCookie_ne_error (raw host defaultPath : Bytes) (secureOrigin : Bool) (now : Int)
    (err : HttpError) : parseSetCookie raw host defaultPath secureOrigin now ≠ .error err := by
  intro h
  unfold parseSetCookie at h
  split at h
  all_goals grind [cookieStoreOp, Outcome.map]

theorem storeValues_eq_panic_iff {uri : Uri} {host : Bytes} {clock : Nat → Int}
    (values : List Bytes) (i : Nat) (jar : CookieJar) :
    jar.storeValues uri host clock i values = .panic ↔
      ∃ j value raw, values[j]? = some value ∧ toStr value = some raw ∧
        MaxAgeOverflows raw host (defaultCookiePath uri) uri.isHttps (clock (i + j)) := by
  induction values generalizing i jar with
  | nil => simp [CookieJar.storeValues]
  | cons value rest ih =>
    have hshift : (∃ j value' raw, (value :: rest)[j]? = some value' ∧ toStr value' = some raw ∧
          MaxAgeOverflows raw host (defaultCookiePath uri) uri.isHttps (clock (i + j))) ↔
        (∃ raw, toStr value = some raw ∧
          MaxAgeOverflows raw host (defaultCookiePath uri) uri.isHttps (clock i)) ∨
        ∃ j value' raw, rest[j]? = some value' ∧ toStr value' = some raw ∧
          MaxAgeOverflows raw host (defaultCookiePath uri) uri.isHttps (clock (i + 1 + j)) := by
      constructor
      · rintro ⟨j, value', raw, hj, hraw, hover⟩
        cases j with
        | zero =>
          cases hj
          exact .inl ⟨raw, hraw, hover⟩
        | succ j =>
          refine .inr ⟨j, value', raw, hj, hraw, ?_⟩
          rwa [Nat.add_right_comm]
      · rintro (⟨raw, hraw, hover⟩ | ⟨j, value', raw, hj, hraw, hover⟩)
        · exact ⟨0, value, raw, rfl, hraw, hover⟩
        · refine ⟨j + 1, value', raw, hj, hraw, ?_⟩
          rwa [Nat.add_right_comm] at hover
    rw [hshift, CookieJar.storeValues]
    cases hraw : toStr value with
    | none => simp [ih]
    | some raw =>
      have hparse := parseSetCookie_eq_panic_iff raw host (defaultCookiePath uri) uri.isHttps
        (clock i)
      simp only [Option.some.injEq, exists_eq_left', ← hparse]
      cases hop : parseSetCookie raw host (defaultCookiePath uri) uri.isHttps (clock i) with
      | ok op => cases op <;> simp [Outcome.bind, ih]
      | error err => exact absurd hop (parseSetCookie_ne_error _ _ _ _ _ _)
      | panic => simp [Outcome.bind]

/-- A server makes the client panic exactly by a status line whose status code cuts a character,
however its bytes arrive, and by a cookie whose `Max-Age` overflows the clock. -/
theorem client_panics_iff (pieces : List Bytes) (jar : CookieJar) (uri : Uri)
    (headers : HeaderMap) (clock : Nat → Int) :
    (∃ answer, feedPieces ResponseParser.feed MessageParser.isComplete ResponseParser.new pieces =
      some answer ∧ (answer = .panic ↔ StatusCodeCut pieces.flatten)) ∧
    (jar.store uri headers clock = .panic ↔
      ∃ host i value raw, uri.host = some host ∧
        (headers.getAll (ascii "set-cookie"))[i]? = some value ∧ toStr value = some raw ∧
        MaxAgeOverflows raw host (defaultCookiePath uri) uri.isHttps (clock i)) := by
  refine ⟨feedPieces_response_panics_iff pieces, ?_⟩
  unfold CookieJar.store
  cases uri.host with
  | none => simp
  | some host => simp [storeValues_eq_panic_iff]

/-- A status line and a cookie at which the client panics. -/
theorem hostile_server_panics :
    ResponseParser.feed ResponseParser.new
        (ascii "HTTP/1.1 20" ++ [0xc3, 0xa9] ++ ascii "\r\n") = some .panic ∧
      CookieJar.empty.store
        ⟨some (ascii "http"), some ⟨ascii "a", ascii "a", none⟩, ascii "/", none⟩
        (HeaderMap.empty.append (ascii "set-cookie") (ascii "a=b; Max-Age=9223372036854775807"))
        (fun _ => 1) = .panic := by
  decide +kernel

end Starfish.Http.Client
