import Starfish.Http.Text

/-!
# Messages

Requests, responses and errors of the HTTP code, with the parts of the `http` crate it
builds them from: methods and header names are tokens, a header map keeps the values of one
name together, in the order in which the names were first added.
-/

namespace Starfish.Http

open Quic (Bytes QuicError)

/-- Errors of the HTTP code. The payloads of the I/O and TLS variants belong to other
libraries; only their text is kept. The text of a parse error is followed by the part of the
input it shows. -/
inductive HttpError
  | io (message : String)
  | tls (message : String)
  | quic (err : QuicError)
  | parse (text : String) (shown : Bytes)
  | headerTooLarge
  | invalidChunkEncoding
  | unexpectedEof
  | connectionClosed
  | timeout
  | qpack (message : String)
deriving DecidableEq, Repr

inductive Version
  | http09
  | http10
  | http11
  | http2
  | http3
deriving DecidableEq, Repr

/-! ## Names and values -/

/-- The characters of a token, for methods and header names: letters, digits and the signs
`!#$%&'*+-.^_|~` and the backtick. -/
def isTokenByte (b : UInt8) : Bool :=
  isDigit b || (0x41 ≤ b && b ≤ 0x5a) || (0x61 ≤ b && b ≤ 0x7a) ||
  b ∈ [0x21, 0x23, 0x24, 0x25, 0x26, 0x27, 0x2a, 0x2b, 0x2d, 0x2e, 0x5e, 0x5f, 0x60, 0x7c, 0x7e]

/-- `Method::from_bytes` accepts the text. -/
def isMethod (s : Bytes) : Bool := !s.isEmpty && s.all isTokenByte

/-- `HeaderName::from_bytes`: a token of at most 65535 bytes, in lower case. -/
def headerName (s : Bytes) : Option Bytes :=
  if s ≠ [] ∧ s.length ≤ 65535 ∧ s.all isTokenByte then some (s.map toLower) else none

def isValueByte (b : UInt8) : Bool := (0x20 ≤ b && b != 0x7f) || b == 0x09

/-- `HeaderValue::from_str`. -/
def headerValue (s : Bytes) : Option Bytes := if s.all isValueByte then some s else none

/-- The bytes `HeaderValue::to_str` lets through. -/
def isVisibleByte (b : UInt8) : Bool := (0x20 ≤ b && b < 0x7f) || b == 0x09

theorem isValueByte_of_isVisibleByte {b : UInt8} (h : isVisibleByte b = true) :
    isValueByte b = true :=
  forall_byte (P := fun b => isVisibleByte b = true → isValueByte b = true) (by decide +kernel) b h

/-- `HeaderValue::to_str`. -/
def toStr (value : Bytes) : Option Bytes := if value.all isVisibleByte then some value else none

def IsHeaderName (name : Bytes) : Prop := headerName name = some name

instance (name : Bytes) : Decidable (IsHeaderName name) := inferInstanceAs (Decidable (_ = _))

/-! ## Header maps -/

/-- Names with their values, one after the other. -/
def flattenGroups (groups : List (Bytes × List Bytes)) : List (Bytes × Bytes) :=
  groups.flatMap fun g => g.2.map fun value => (g.1, value)

def appendGroup (name value : Bytes) : List (Bytes × List Bytes) → List (Bytes × List Bytes)
  | [] => [(name, [value])]
  | g :: rest =>
    if g.1 = name then (g.1, g.2 ++ [value]) :: rest else g :: appendGroup name value rest

variable {name value : Bytes} {groups : List (Bytes × List Bytes)}

theorem mem_names_appendGroup {other : Bytes}
    (h : other ∈ (appendGroup name value groups).map Prod.fst) :
    other = name ∨ other ∈ groups.map Prod.fst := by
  induction groups with
  | nil =>
    grind [appendGroup]
  | cons g rest ih =>
    grind [appendGroup]

theorem nodup_appendGroup (h : (groups.map Prod.fst).Nodup) :
    ((appendGroup name value groups).map Prod.fst).Nodup := by
  induction groups with
  | nil => simp [appendGroup]
  | cons g rest ih =>
    rw [appendGroup]
    rw [List.map_cons, List.nodup_cons] at h
    split
    · exact List.nodup_cons.mpr h
    · next hne =>
        rw [List.map_cons, List.nodup_cons]
        refine ⟨fun hmem => ?_, ih h.2⟩
        rcases mem_names_appendGroup hmem with heq | hrest
        · exact hne heq
        · exact h.1 hrest

theorem appendGroup_values (h : ∀ g ∈ groups, g.2 ≠ []) :
    ∀ g ∈ appendGroup name value groups, g.2 ≠ [] := by
  induction groups with
  | nil => simp [appendGroup]
  | cons g rest ih =>
    rw [appendGroup]
    rw [List.forall_mem_cons] at h
    split
    · exact List.forall_mem_cons.mpr ⟨by simp, h.2⟩
    · exact List.forall_mem_cons.mpr ⟨h.1, ih h.2⟩

/-- `http::HeaderMap`: every name once, with one or more values. -/
@[ext]
structure HeaderMap where
  groups : List (Bytes × List Bytes)
  nodup : (groups.map Prod.fst).Nodup
  nonempty : ∀ g ∈ groups, g.2 ≠ []
deriving DecidableEq

namespace HeaderMap

def empty : HeaderMap := ⟨[], by simp, by simp⟩

def entries (m : HeaderMap) : List (Bytes × Bytes) := flattenGroups m.groups

def append (m : HeaderMap) (name value : Bytes) : HeaderMap :=
  ⟨appendGroup name value m.groups, nodup_appendGroup m.nodup, appendGroup_values m.nonempty⟩

def containsKey (m : HeaderMap) (name : Bytes) : Bool := m.groups.any fun g => g.1 == name

def getAll (m : HeaderMap) (name : Bytes) : List Bytes :=
  (m.entries.filter fun e => e.1 == name).map Prod.snd

def remove (m : HeaderMap) (name : Bytes) : HeaderMap where
  groups := m.groups.filter fun g => g.1 != name
  nodup := m.nodup.sublist (List.filter_sublist.map Prod.fst)
  nonempty := fun g hg => m.nonempty g (List.mem_of_mem_filter hg)

def appendAll (m : HeaderMap) (headers : List (Bytes × Bytes)) : HeaderMap :=
  headers.foldl (fun m e => m.append e.1 e.2) m

end HeaderMap

/-! ## Adding headers again -/

theorem appendGroup_new (h : name ∉ groups.map Prod.fst) (value : Bytes) :
    appendGroup name value groups = groups ++ [(name, [value])] := by
  induction groups with
  | nil => rfl
  | cons g rest ih =>
    rw [List.map_cons, List.mem_cons, not_or] at h
    rw [appendGroup, if_neg (Ne.symm h.1), ih h.2, List.cons_append]

theorem appendGroup_last (h : name ∉ groups.map Prod.fst) (values : List Bytes) (value : Bytes) :
    appendGroup name value (groups ++ [(name, values)]) = groups ++ [(name, values ++ [value])] := by
  induction groups with
  | nil => rw [List.nil_append, appendGroup, if_pos rfl, List.nil_append]
  | cons g rest ih =>
    rw [List.map_cons, List.mem_cons, not_or] at h
    rw [List.cons_append, appendGroup, if_neg (Ne.symm h.1), ih h.2, List.cons_append]

theorem foldl_appendGroup_last (h : name ∉ groups.map Prod.fst) (values more : List Bytes) :
    (more.map fun value => (name, value)).foldl (fun gs e => appendGroup e.1 e.2 gs)
        (groups ++ [(name, values)]) = groups ++ [(name, values ++ more)] := by
  induction more generalizing values with
  | nil => simp
  | cons value rest ih =>
    rw [List.map_cons, List.foldl_cons, appendGroup_last h, ih, List.append_assoc,
      List.singleton_append]

theorem foldl_appendGroup_flatten (groups acc : List (Bytes × List Bytes))
    (hnodup : ((acc ++ groups).map Prod.fst).Nodup) (hne : ∀ g ∈ groups, g.2 ≠ []) :
    (flattenGroups groups).foldl (fun gs e => appendGroup e.1 e.2 gs) acc = acc ++ groups := by
  induction groups generalizing acc with
  | nil => simp [flattenGroups]
  | cons g rest ih =>
    obtain ⟨name, values⟩ := g
    rw [List.forall_mem_cons] at hne
    have hnew : name ∉ acc.map Prod.fst := by
      rw [List.map_append, List.nodup_append] at hnodup
      exact fun hmem => hnodup.2.2 name hmem name (by simp) rfl
    cases values with
    | nil => exact absurd rfl hne.1
    | cons value more =>
      have hflat : flattenGroups ((name, value :: more) :: rest) =
          (name, value) :: (more.map fun v => (name, v)) ++ flattenGroups rest := rfl
      rw [hflat, List.cons_append, List.foldl_cons, List.foldl_append, appendGroup_new hnew,
        foldl_appendGroup_last hnew, List.singleton_append, ih _ _ hne.2, List.append_assoc,
        List.singleton_append]
      rwa [List.append_assoc, List.singleton_append]

namespace HeaderMap

variable (m : HeaderMap)

theorem appendAll_groups (headers : List (Bytes × Bytes)) :
    (m.appendAll headers).groups =
      headers.foldl (fun gs e => appendGroup e.1 e.2 gs) m.groups := by
  induction headers generalizing m with
  | nil => rfl
  | cons e rest ih => exact ih (m.append e.1 e.2)

theorem appendAll_entries : empty.appendAll m.entries = m := by
  apply HeaderMap.ext
  rw [appendAll_groups]
  exact foldl_appendGroup_flatten m.groups [] m.nodup m.nonempty

variable (name : Bytes)

theorem containsKey_iff :
    m.containsKey name = true ↔ ∃ e ∈ m.entries, e.1 = name := by
  rw [containsKey, List.any_eq_true]
  constructor
  · rintro ⟨g, hg, hname⟩
    obtain ⟨value, hvalue⟩ := List.exists_mem_of_ne_nil _ (m.nonempty g hg)
    refine ⟨(g.1, value), ?_, by simpa using hname⟩
    exact List.mem_flatMap.mpr ⟨g, hg, List.mem_map.mpr ⟨value, hvalue, rfl⟩⟩
  · rintro ⟨e, he, rfl⟩
    obtain ⟨g, hg, hmap⟩ := List.mem_flatMap.mp he
    grind

theorem getAll_eq_flatMap :
    m.getAll name = m.groups.flatMap fun g => if g.1 = name then g.2 else [] := by
  unfold getAll entries flattenGroups
  rw [List.filter_flatMap, List.map_flatMap]
  congr 1
  funext g
  by_cases h : g.1 = name <;> simp [h, List.filter_map]

theorem getAll_append (value other : Bytes) :
    (m.append name value).getAll other = m.getAll other ++ if name = other then [value] else [] := by
  rw [getAll_eq_flatMap, getAll_eq_flatMap]
  change (appendGroup name value m.groups).flatMap _ = _
  have hnodup := m.nodup
  generalize m.groups = groups at hnodup ⊢
  induction groups with
  | nil => simp [appendGroup]
  | cons g rest ih =>
    rw [appendGroup]
    split
    · next hname =>
      subst hname
      by_cases hother : g.1 = other
      · subst hother
        -- no later group has the name
        have hrest : (rest.flatMap fun g' => if g'.1 = g.1 then g'.2 else []) = [] := by
          rw [List.flatMap_eq_nil_iff]
          grind
        simp [hrest]
      · simp [hother]
    · grind

theorem getAll_appendAll (headers : List (Bytes × Bytes)) (name : Bytes) :
    (m.appendAll headers).getAll name =
      m.getAll name ++ (headers.filter fun e => e.1 == name).map Prod.snd := by
  induction headers generalizing m with
  | nil => simp [appendAll]
  | cons e rest ih =>
    change ((m.append e.1 e.2).appendAll rest).getAll name = _
    rw [ih, getAll_append, List.append_assoc]
    by_cases h : e.1 = name <;> simp [h]

theorem getAll_of_not_containsKey {m : HeaderMap} {name : Bytes} (h : m.containsKey name = false) :
    m.getAll name = [] := by
  rw [getAll_eq_flatMap, List.flatMap_eq_nil_iff]
  intro g hg
  have hne := List.any_eq_false.mp h g hg
  exact if_neg fun heq => hne (by simp [heq])

end HeaderMap

/-! ## Requests and responses -/

/-- `http::Request<Vec<u8>>`; the target is the text its URI is displayed as. -/
structure Request where
  method : Bytes
  target : Bytes
  version : Version
  headers : HeaderMap
  body : Bytes
deriving DecidableEq

/-- `http::Response<Vec<u8>>`. -/
structure Response where
  status : Nat
  version : Version
  headers : HeaderMap
  body : Bytes
deriving DecidableEq

/-- `StatusCode::is_informational`. -/
def Response.isInformational (r : Response) : Bool := 100 ≤ r.status && r.status < 200

/-- `builder.header(name, value)` for one header after the other; the first name or value that
is not accepted makes the builder fail. -/
def buildHeaders (what : String) : HeaderMap → List (Bytes × Bytes) → Except HttpError HeaderMap
  | m, [] => .ok m
  | m, (name, value) :: rest =>
    match headerName name, headerValue value with
    | some name, some value => buildHeaders what (m.append name value) rest
    | none, _ => .error (.parse what (ascii "invalid HTTP header name"))
    | _, none => .error (.parse what (ascii "failed to parse header value"))

theorem buildHeaders_ok (what : String) {headers : List (Bytes × Bytes)}
    (h : ∀ e ∈ headers, headerName e.1 = some (e.1.map toLower) ∧ headerValue e.2 = some e.2)
    (m : HeaderMap) :
    buildHeaders what m headers =
      .ok (m.appendAll (headers.map fun e => (e.1.map toLower, e.2))) := by
  induction headers generalizing m with
  | nil => rfl
  | cons e rest ih =>
    rw [List.forall_mem_cons] at h
    rw [buildHeaders, h.1.1, h.1.2]
    exact ih h.2 _

theorem length_flatten_appendGroup (name value : Bytes) (groups : List (Bytes × List Bytes)) :
    (flattenGroups (appendGroup name value groups)).length = (flattenGroups groups).length + 1 := by
  have hcons : ∀ (g : Bytes × List Bytes) (rest : List (Bytes × List Bytes)),
      (flattenGroups (g :: rest)).length = g.2.length + (flattenGroups rest).length := by
    intro g rest
    simp [flattenGroups]
  induction groups with
  | nil => rfl
  | cons g rest ih =>
    grind [appendGroup]

theorem buildHeaders_length {what : String} {headers : List (Bytes × Bytes)} {m built : HeaderMap}
    (h : buildHeaders what m headers = .ok built) :
    built.entries.length = m.entries.length + headers.length := by
  induction headers generalizing m with
  | nil =>
    cases h
    rfl
  | cons e rest ih =>
    rw [buildHeaders] at h
    split at h
    · next name value _ _ =>
        have hone : (m.append name value).entries.length = m.entries.length + 1 :=
          length_flatten_appendGroup name value m.groups
        rw [ih h, hone, List.length_cons]
        omega
    · cases h
    · cases h

end Starfish.Http
