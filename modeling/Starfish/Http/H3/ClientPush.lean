import Starfish.Http.H3.UniStream
import Starfish.Lib.History
import Starfish.Lib.OrdMap

/-!
# Pushed responses at the client

A PUSH_PROMISE on a request stream and the push stream it announces arrive in any order. The
client pairs them through `promised_pushes` and `ready_pushes`, where an empty header list marks
a push whose promise has not been seen.
-/

namespace Starfish.Http.H3.Client

open Quic (Bytes QuicError)

abbrev HeaderList := List (Bytes × Bytes)

structure H3Push where
  pushId : Nat
  requestHeaders : HeaderList
  responseHeaders : HeaderList
  body : Bytes
deriving DecidableEq, Repr

inductive PushEvent
  /-- MAX_PUSH_ID was sent. -/
  | advertised (maxPushId : Nat)
  /-- A PUSH_PROMISE was stored. -/
  | promised (pushId : Nat) (headers : HeaderList)
  /-- A push stream was completed. -/
  | completed (pushId : Nat)
  /-- `accept_push` returned a push. -/
  | accepted (push : H3Push)
deriving DecidableEq, Repr

/-- The part of the connection that concerns pushes. `history` is not in the source: it records
what the statements speak of. -/
structure H3Connection where
  localMaxPushId : Option Nat := none
  promisedPushes : OrdMap HeaderList := OrdMap.empty
  readyPushes : List H3Push := []
  history : List PushEvent := []

def idError (message : String) : HttpError := .parse s!"H3_ID_ERROR (0x0108): {message}" []

def messageError (message : String) : HttpError :=
  .parse s!"H3_MESSAGE_ERROR (0x010e): {message}" []

def validateLocalMaxPushId (current : Option Nat) (maxPushId : Nat) : Except HttpError Unit :=
  match current with
  | none => .ok ()
  | some previous =>
    if maxPushId < previous then
      .error (idError
        s!"locally advertised MAX_PUSH_ID decreased from {previous} to {maxPushId}")
    else .ok ()

def validateIncomingPushId (localMaxPushId : Option Nat) (pushId : Nat) : Except HttpError Unit :=
  match localMaxPushId with
  | some maxPushId =>
    if pushId ≤ maxPushId then .ok ()
    else
      .error (idError s!"received push ID {pushId} above advertised MAX_PUSH_ID {maxPushId}")
  | none => .error (idError s!"received push ID {pushId} before advertising MAX_PUSH_ID")

def ensureInitialHeadersSeen (sawInitialHeaders : Bool) (streamLabel : String) :
    Except HttpError Unit :=
  if !sawInitialHeaders then
    .error (messageError s!"{streamLabel} stream ended without an initial HEADERS frame")
  else .ok ()

namespace H3Connection

/-- `send_max_push_id`; `sent` is the answer of opening the control stream, encoding and sending,
`flushed` that of the final flush. -/
def sendMaxPushId (conn : H3Connection) (maxPushId : Nat) (sent flushed : Except HttpError Unit) :
    Except HttpError Unit × H3Connection :=
  match validateLocalMaxPushId conn.localMaxPushId maxPushId with
  | .error e => (.error e, conn)
  | .ok () =>
    match sent with
    | .error e => (.error e, conn)
    | .ok () =>
      (flushed, { conn with
        localMaxPushId := some maxPushId
        history := conn.history ++ [.advertised maxPushId] })

def fillPromise (pushId : Nat) (headers : HeaderList) : List H3Push → Option (List H3Push)
  | [] => none
  | push :: rest =>
    if push.pushId = pushId ∧ push.requestHeaders.isEmpty then
      some ({ push with requestHeaders := headers } :: rest)
    else (fillPromise pushId headers rest).map (push :: ·)

def keepPromise (conn : H3Connection) (pushId : Nat) (headers : HeaderList) : H3Connection :=
  match fillPromise pushId headers conn.readyPushes with
  | some ready => { conn with
      readyPushes := ready
      history := conn.history ++ [.promised pushId headers] }
  | none => { conn with
      promisedPushes := conn.promisedPushes.insert pushId headers
      history := conn.history ++ [.promised pushId headers] }

def storePromisedPush (conn : H3Connection) (pushId : Nat) (headers : HeaderList) :
    Except HttpError Unit × H3Connection :=
  match validateIncomingPushId conn.localMaxPushId pushId with
  | .error e => (.error e, conn)
  | .ok () => (.ok (), conn.keepPromise pushId headers)

/-- A PUSH_PROMISE frame in `read_response`; `decoded` is the answer of the QPACK decoder. -/
def receivePromise (conn : H3Connection) (pushId : Nat) (decoded : Except HttpError HeaderList) :
    Except HttpError Unit × H3Connection :=
  match decoded with
  | .error e => (.error e, conn)
  | .ok headers => conn.storePromisedPush pushId headers

def makeReady (conn : H3Connection) (pushId : Nat) (responseHeaders : HeaderList) (body : Bytes) :
    H3Connection :=
  { conn with
    promisedPushes := conn.promisedPushes.erase pushId
    readyPushes := conn.readyPushes ++
      [⟨pushId, (conn.promisedPushes.find? pushId).getD [], responseHeaders, body⟩]
    history := conn.history ++ [.completed pushId] }

/-- `finish_push_stream`; `decoded` and `trailers` are the answers of the QPACK decoder for the
two blocks. -/
def finishPushStream (conn : H3Connection) (st : UniStreamState)
    (decoded trailers : Except HttpError HeaderList) : Outcome HttpError Unit × H3Connection :=
  match st.ingestPushId true with
  | .panic => (.panic, conn)
  | .error e => (.error e, conn)
  | .ok (_, none) => (.error (.parse "missing push stream ID" []), conn)
  | .ok (st, some pushId) =>
    match validateIncomingPushId conn.localMaxPushId pushId with
    | .error e => (.error e, conn)
    | .ok () =>
      match ensureInitialHeadersSeen st.pushResponseHeadersBlock.isSome "push response" with
      | .error e => (.error e, conn)
      | .ok () =>
        match decoded with
        | .error e => (.error e, conn)
        | .ok responseHeaders =>
          match (if st.pushTrailersBlock.isSome then trailers else .ok []) with
          | .error e => (.error e, conn)
          | .ok _ => (.ok (), conn.makeReady pushId responseHeaders st.pushBody)

def acceptPush (conn : H3Connection) : Option H3Push × H3Connection :=
  match conn.readyPushes with
  | [] => (none, conn)
  | push :: rest =>
    (some push, { conn with
      readyPushes := rest
      history := conn.history ++ [.accepted push] })

end H3Connection

/-- The calls and arrivals that concern pushes. A push stream that is completed has any state the
reads of the stream have left. -/
inductive Call
  | sendMaxPushId (maxPushId : Nat) (sent flushed : Except HttpError Unit)
  | promise (pushId : Nat) (decoded : Except HttpError HeaderList)
  | finish (st : UniStreamState) (decoded trailers : Except HttpError HeaderList)
  | accept

namespace H3Connection

def exec (conn : H3Connection) : Call → H3Connection
  | .sendMaxPushId maxPushId sent flushed => (conn.sendMaxPushId maxPushId sent flushed).2
  | .promise pushId decoded => (conn.receivePromise pushId decoded).2
  | .finish st decoded trailers => (conn.finishPushStream st decoded trailers).2
  | .accept => conn.acceptPush.2

def run (conn : H3Connection) (calls : List Call) : H3Connection := calls.foldl exec conn

theorem exec_cases (conn : H3Connection) (call : Call) :
    conn.exec call = conn ∨
    (∃ maxPushId, conn.exec call = { conn with
      localMaxPushId := some maxPushId
      history := conn.history ++ [.advertised maxPushId] }) ∨
    (∃ pushId headers, conn.exec call = conn.keepPromise pushId headers) ∨
    (∃ pushId maxPushId responseHeaders body, conn.localMaxPushId = some maxPushId ∧
      pushId ≤ maxPushId ∧ conn.exec call = conn.makeReady pushId responseHeaders body) ∨
    ∃ push rest, conn.readyPushes = push :: rest ∧ conn.exec call = { conn with
      readyPushes := rest
      history := conn.history ++ [.accepted push] } := by
  cases call with
  | sendMaxPushId maxPushId sent flushed =>
    unfold exec sendMaxPushId
    grind
  | promise pushId decoded =>
    unfold exec receivePromise storePromisedPush
    dsimp only
    split
    · exact .inl rfl
    · split
      · exact .inl rfl
      · exact .inr (.inr (.inl ⟨_, _, rfl⟩))
  | finish st decoded trailers =>
    unfold exec finishPushStream
    dsimp only
    split
    · exact .inl rfl
    · exact .inl rfl
    · exact .inl rfl
    · split
      · exact .inl rfl
      · next hvalid =>
        repeat' split
        all_goals first
          | exact .inl rfl
          | skip
        refine .inr (.inr (.inr (.inl ?_)))
        unfold validateIncomingPushId at hvalid
        grind
  | accept =>
    grind [exec, acceptPush]

end H3Connection

/-! ## Pairing -/

def completedIds (history : List PushEvent) : List Nat :=
  history.filterMap fun
    | .completed pushId => some pushId
    | _ => none

def acceptedIds (history : List PushEvent) : List Nat :=
  history.filterMap fun
    | .accepted push => some push.pushId
    | _ => none

def CarriesPromise (history : List PushEvent) (push : H3Push) : Prop :=
  ∀ headers, .promised push.pushId headers ∈ history →
    .promised push.pushId push.requestHeaders ∈ history

def WithinLimit (history : List PushEvent) (pushId : Nat) : Prop :=
  ∃ maxPushId, .advertised maxPushId ∈ history ∧ pushId ≤ maxPushId

/-- How the collections of the connection belong to its history. What is said about promises
rests on there being one push stream for an ID. -/
structure Paired (conn : H3Connection) : Prop where
  fifo : completedIds conn.history =
    acceptedIds conn.history ++ conn.readyPushes.map H3Push.pushId
  limit : ∀ maxPushId, conn.localMaxPushId = some maxPushId →
    .advertised maxPushId ∈ conn.history
  promised : ∀ pushId headers, conn.promisedPushes.find? pushId = some headers →
    .promised pushId headers ∈ conn.history
  waiting : (completedIds conn.history).Nodup → ∀ pushId headers,
    .promised pushId headers ∈ conn.history → pushId ∉ completedIds conn.history →
    (conn.promisedPushes.find? pushId).isSome
  within : ∀ push ∈ conn.readyPushes, WithinLimit conn.history push.pushId
  source : ∀ push ∈ conn.readyPushes, push.requestHeaders = [] ∨
    .promised push.pushId push.requestHeaders ∈ conn.history
  carries : (completedIds conn.history).Nodup → ∀ push ∈ conn.readyPushes,
    CarriesPromise conn.history push
  delivered : ∀ before push after, conn.history = before ++ .accepted push :: after →
    WithinLimit before push.pushId ∧
      ((completedIds conn.history).Nodup → CarriesPromise before push)

variable {history : List PushEvent}

theorem WithinLimit.mono {pushId : Nat} (h : WithinLimit history pushId) (more : List PushEvent) :
    WithinLimit (history ++ more) pushId := by
  obtain ⟨maxPushId, hmem, hle⟩ := h
  exact ⟨maxPushId, List.mem_append_left _ hmem, hle⟩

variable {push : H3Push} {event : PushEvent}

theorem CarriesPromise.concat (h : CarriesPromise history push)
    (hevent : ∀ pushId headers, event ≠ .promised pushId headers) :
    CarriesPromise (history ++ [event]) push := by
  intro headers hmem
  rcases List.mem_append.mp hmem with hmem | hmem
  · exact List.mem_append_left _ (h headers hmem)
  · grind

theorem mem_concat_promised {pushId : Nat} {headers : HeaderList}
    (hevent : ∀ pushId headers, event ≠ .promised pushId headers) :
    .promised pushId headers ∈ history ++ [event] ↔ .promised pushId headers ∈ history := by
  simp [(hevent pushId headers).symm]

theorem Paired.delivered_concat {conn : H3Connection} (h : Paired conn)
    (hevent : ∀ push, event ≠ .accepted push)
    (hnodup : (completedIds (conn.history ++ [event])).Nodup → (completedIds conn.history).Nodup)
    {before after : List PushEvent}
    (heq : conn.history ++ [event] = before ++ .accepted push :: after) :
    WithinLimit before push.pushId ∧
      ((completedIds (conn.history ++ [event])).Nodup → CarriesPromise before push) := by
  rcases History.split_concat heq with ⟨-, hlast, -⟩ | ⟨rest, -, hrest⟩
  · exact absurd hlast (hevent push)
  · obtain ⟨hlimit, hcarries⟩ := h.delivered before push rest hrest
    exact ⟨hlimit, fun hn => hcarries (hnodup hn)⟩

theorem paired_new : Paired {} := by
  constructor <;> simp [completedIds, acceptedIds, OrdMap.empty, OrdMap.find?]

theorem Paired.advertise {conn : H3Connection} (h : Paired conn) (maxPushId : Nat) :
    Paired { conn with
      localMaxPushId := some maxPushId
      history := conn.history ++ [.advertised maxPushId] } := by
  have hcompleted : completedIds (conn.history ++ [.advertised maxPushId]) =
      completedIds conn.history := by simp [completedIds]
  have haccepted : acceptedIds (conn.history ++ [.advertised maxPushId]) =
      acceptedIds conn.history := by simp [acceptedIds]
  constructor
  · dsimp only
    rw [hcompleted, haccepted, h.fifo]
  · intro m hm
    cases hm
    simp
  · grind [cases Paired]
  · intro hnodup pushId headers hmem hnot
    dsimp only at hnodup hmem hnot ⊢
    rw [hcompleted] at hnodup hnot
    rw [mem_concat_promised (by simp)] at hmem
    exact h.waiting hnodup pushId headers hmem hnot
  · exact fun push hpush => (h.within push hpush).mono _
  · exact fun push hpush => (h.source push hpush).imp id (List.mem_append_left _)
  · intro hnodup push hpush
    dsimp only at hnodup
    rw [hcompleted] at hnodup
    exact (h.carries hnodup push hpush).concat (by simp)
  · intro before push after heq
    exact h.delivered_concat (by simp) (by rw [hcompleted]; exact id) heq

theorem Paired.accept {conn : H3Connection} (h : Paired conn) {rest : List H3Push}
    (hready : conn.readyPushes = push :: rest) :
    Paired { conn with
      readyPushes := rest
      history := conn.history ++ [.accepted push] } := by
  have hmem : ∀ p ∈ rest, p ∈ conn.readyPushes := fun p hp => by
    rw [hready]
    exact List.mem_cons_of_mem push hp
  have hfirst : push ∈ conn.readyPushes := by simp [hready]
  have hcompleted : completedIds (conn.history ++ [.accepted push]) =
      completedIds conn.history := by simp [completedIds]
  have haccepted : acceptedIds (conn.history ++ [.accepted push]) =
      acceptedIds conn.history ++ [push.pushId] := by simp [acceptedIds]
  constructor
  · grind [cases Paired]
  · exact fun m hm => List.mem_append_left _ (h.limit m hm)
  · grind [cases Paired]
  · intro hnodup pushId headers hpromised hnot
    dsimp only at hnodup hpromised hnot ⊢
    rw [hcompleted] at hnodup hnot
    rw [mem_concat_promised (by simp)] at hpromised
    exact h.waiting hnodup pushId headers hpromised hnot
  · exact fun p hp => (h.within p (hmem p hp)).mono _
  · grind [cases Paired]
  · intro hnodup p hp
    dsimp only at hnodup
    rw [hcompleted] at hnodup
    exact (h.carries hnodup p (hmem p hp)).concat (by simp)
  · intro before p after heq
    dsimp only at heq ⊢
    rw [hcompleted]
    rcases History.split_concat heq with ⟨rfl, hlast, -⟩ | ⟨tail, -, htail⟩
    · cases hlast
      exact ⟨h.within push hfirst, fun hnodup => h.carries hnodup push hfirst⟩
    · exact h.delivered before p tail htail

theorem Paired.makeReady {conn : H3Connection} (h : Paired conn) {pushId maxPushId : Nat}
    (hmax : conn.localMaxPushId = some maxPushId) (hle : pushId ≤ maxPushId)
    (responseHeaders : HeaderList) (body : Bytes) :
    Paired (conn.makeReady pushId responseHeaders body) := by
  have hcompleted : completedIds (conn.history ++ [.completed pushId]) =
      completedIds conn.history ++ [pushId] := by simp [completedIds]
  have haccepted : acceptedIds (conn.history ++ [.completed pushId]) =
      acceptedIds conn.history := by simp [acceptedIds]
  have hsplit : (completedIds (conn.history ++ [.completed pushId])).Nodup →
      (completedIds conn.history).Nodup ∧ pushId ∉ completedIds conn.history := by
    grind
  -- the headers of the new push come from the promise, if one is waiting
  have hnew : CarriesPromise conn.history
      ⟨pushId, (conn.promisedPushes.find? pushId).getD [], responseHeaders, body⟩ ∨
      ¬ ((completedIds conn.history).Nodup ∧ pushId ∉ completedIds conn.history) := by
    by_cases hc : (completedIds conn.history).Nodup ∧ pushId ∉ completedIds conn.history
    · refine .inl fun headers hmem => ?_
      obtain ⟨kept, hkept⟩ := Option.isSome_iff_exists.mp (h.waiting hc.1 pushId headers hmem hc.2)
      simp only [hkept, Option.getD_some]
      exact h.promised pushId kept hkept
    · exact .inr hc
  constructor
  · change completedIds (conn.history ++ [.completed pushId]) = _
    rw [hcompleted, h.fifo]
    simp [H3Connection.makeReady, haccepted]
  · exact fun m hm => List.mem_append_left _ (h.limit m hm)
  · intro id headers hfind
    simp only [H3Connection.makeReady, OrdMap.find?_erase] at hfind
    split at hfind
    · cases hfind
    · exact List.mem_append_left _ (h.promised id headers hfind)
  · intro hnodup id headers hpromised hnot
    simp only [H3Connection.makeReady] at hnodup hpromised hnot ⊢
    rw [mem_concat_promised (by simp)] at hpromised
    rw [hcompleted] at hnot
    simp only [List.mem_append, List.mem_singleton, not_or] at hnot
    rw [OrdMap.find?_erase, if_neg hnot.2]
    exact h.waiting (hsplit hnodup).1 id headers hpromised hnot.1
  · intro push hpush
    simp only [H3Connection.makeReady, List.mem_append, List.mem_singleton] at hpush
    rcases hpush with hpush | rfl
    · exact (h.within push hpush).mono _
    · exact ⟨maxPushId, List.mem_append_left _ (h.limit maxPushId hmax), hle⟩
  · intro push hpush
    simp only [H3Connection.makeReady, List.mem_append, List.mem_singleton] at hpush
    rcases hpush with hpush | rfl
    · exact (h.source push hpush).imp id (List.mem_append_left _)
    · cases hfind : conn.promisedPushes.find? pushId with
      | none => exact .inl rfl
      | some headers => exact .inr (List.mem_append_left _ (h.promised pushId headers hfind))
  · intro hnodup push hpush
    have hparts := hsplit hnodup
    simp only [H3Connection.makeReady, List.mem_append, List.mem_singleton] at hpush
    rcases hpush with hpush | rfl
    · exact (h.carries hparts.1 push hpush).concat (by simp)
    · exact (hnew.resolve_right (not_not_intro hparts)).concat (by simp)
  · intro before push after heq
    exact h.delivered_concat (by simp) (fun hn => (hsplit hn).1) heq

variable {ready : List H3Push}

theorem fillPromise_eq_none {pushId : Nat} {headers : HeaderList}
    (h : H3Connection.fillPromise pushId headers ready = none) :
    ∀ push ∈ ready, push.pushId = pushId → push.requestHeaders ≠ [] := by
  induction ready with
  | nil => simp
  | cons first rest ih =>
    unfold H3Connection.fillPromise at h
    split at h
    · cases h
    · next hfirst =>
      refine List.forall_mem_cons.mpr ⟨fun hid hempty => hfirst ⟨hid, by simp [hempty]⟩, ?_⟩
      exact ih (Option.map_eq_none_iff.mp h)

theorem fillPromise_eq_some {pushId : Nat} {headers : HeaderList} {filled : List H3Push}
    (h : H3Connection.fillPromise pushId headers ready = some filled) :
    filled.map H3Push.pushId = ready.map H3Push.pushId ∧ pushId ∈ ready.map H3Push.pushId ∧
      ∀ push ∈ filled, push ∈ ready ∨ (push.pushId = pushId ∧ push.requestHeaders = headers) := by
  induction ready generalizing filled with
  | nil => cases h
  | cons first rest ih =>
    unfold H3Connection.fillPromise at h
    split at h
    · next hfirst =>
      grind
    · obtain ⟨tail, htail, rfl⟩ := Option.map_eq_some_iff.mp h
      obtain ⟨hids, hmem, hpushes⟩ := ih htail
      refine ⟨by simp [hids], List.mem_cons_of_mem _ hmem, List.forall_mem_cons.mpr ⟨?_, ?_⟩⟩
      · exact .inl List.mem_cons_self
      · exact fun push hpush => (hpushes push hpush).imp (List.mem_cons_of_mem first) id

theorem fillPromise_headers {pushId : Nat} {headers : HeaderList} {filled : List H3Push}
    (h : H3Connection.fillPromise pushId headers ready = some filled)
    (hnodup : (ready.map H3Push.pushId).Nodup) :
    ∀ push ∈ filled, push.pushId = pushId → push.requestHeaders = headers := by
  induction ready generalizing filled with
  | nil => cases h
  | cons first rest ih =>
    rw [List.map_cons, List.nodup_cons] at hnodup
    unfold H3Connection.fillPromise at h
    split at h
    · next hfirst =>
      grind
    · obtain ⟨tail, htail, rfl⟩ := Option.map_eq_some_iff.mp h
      refine List.forall_mem_cons.mpr ⟨fun hid => ?_, ih htail hnodup.2⟩
      exact absurd (hid ▸ (fillPromise_eq_some htail).2.1) hnodup.1

theorem Paired.ready_nodup {conn : H3Connection} (h : Paired conn)
    (hnodup : (completedIds conn.history).Nodup) : (conn.readyPushes.map H3Push.pushId).Nodup := by
  rw [h.fifo] at hnodup
  exact (List.nodup_append.mp hnodup).2.1

theorem ids_promised (history : List PushEvent) (pushId : Nat) (headers : HeaderList) :
    completedIds (history ++ [.promised pushId headers]) = completedIds history ∧
      acceptedIds (history ++ [.promised pushId headers]) = acceptedIds history := by
  simp [completedIds, acceptedIds]

section KeepPromise

variable {conn : H3Connection} (h : Paired conn) {pushId : Nat} {headers : HeaderList}
include h

theorem Paired.keepPromise_none
    (hfill : H3Connection.fillPromise pushId headers conn.readyPushes = none) :
    Paired { conn with
      promisedPushes := conn.promisedPushes.insert pushId headers
      history := conn.history ++ [.promised pushId headers] } := by
  obtain ⟨hcompleted, haccepted⟩ := ids_promised conn.history pushId headers
  constructor
  · dsimp only
    rw [hcompleted, haccepted, h.fifo]
  · exact fun m hm => List.mem_append_left _ (h.limit m hm)
  · intro id kept hfind
    simp only [OrdMap.find?_insert] at hfind
    split at hfind
    · next hid =>
      cases hfind
      simp [hid]
    · exact List.mem_append_left _ (h.promised id kept hfind)
  · intro hnodup id kept hmem hnot
    simp only [OrdMap.find?_insert] at hmem hnot ⊢
    rw [hcompleted] at hnodup hnot
    by_cases hid : id = pushId
    · simp [hid]
    · rw [if_neg hid]
      grind [cases Paired]
  · exact fun push hpush => (h.within push hpush).mono _
  · grind [cases Paired]
  · intro hnodup push hpush kept hmem
    dsimp only at hnodup hmem ⊢
    rw [hcompleted] at hnodup
    by_cases hid : push.pushId = pushId
    · have hsome := fillPromise_eq_none hfill push hpush hid
      exact List.mem_append_left _ ((h.source push hpush).resolve_left hsome)
    · refine List.mem_append_left _ (h.carries hnodup push hpush kept ?_)
      simpa [hid] using hmem
  · intro before push after heq
    exact h.delivered_concat (by simp) (by rw [hcompleted]; exact id) heq

theorem Paired.keepPromise_some {filled : List H3Push}
    (hfill : H3Connection.fillPromise pushId headers conn.readyPushes = some filled) :
    Paired { conn with
      readyPushes := filled
      history := conn.history ++ [.promised pushId headers] } := by
  obtain ⟨hcompleted, haccepted⟩ := ids_promised conn.history pushId headers
  obtain ⟨hids, hready, hpushes⟩ := fillPromise_eq_some hfill
  constructor
  · dsimp only
    rw [hcompleted, haccepted, h.fifo, hids]
  · exact fun m hm => List.mem_append_left _ (h.limit m hm)
  · grind [cases Paired]
  · grind [cases Paired]
  · intro push hpush
    have hmem : push.pushId ∈ conn.readyPushes.map H3Push.pushId :=
      hids ▸ List.mem_map_of_mem hpush
    obtain ⟨old, hold, hid⟩ := List.mem_map.mp hmem
    rw [← hid]
    exact (h.within old hold).mono _
  · grind [cases Paired]
  · intro hnodup push hpush kept hmem
    dsimp only at hnodup hmem ⊢
    rw [hcompleted] at hnodup
    by_cases hid : push.pushId = pushId
    · simp [hid, fillPromise_headers hfill (h.ready_nodup hnodup) push hpush hid]
    · have hold := (hpushes push hpush).resolve_right fun hnew => hid hnew.1
      refine List.mem_append_left _ (h.carries hnodup push hold kept ?_)
      simpa [hid] using hmem
  · intro before push after heq
    exact h.delivered_concat (by simp) (by rw [hcompleted]; exact id) heq

end KeepPromise

theorem Paired.exec {conn : H3Connection} (h : Paired conn) (call : Call) :
    Paired (conn.exec call) := by
  rcases conn.exec_cases call with heq | ⟨maxPushId, heq⟩ | ⟨pushId, headers, heq⟩ |
    ⟨pushId, maxPushId, responseHeaders, body, hmax, hle, heq⟩ | ⟨push, rest, hready, heq⟩
  · rw [heq]
    exact h
  · rw [heq]
    exact h.advertise maxPushId
  · rw [heq]
    unfold H3Connection.keepPromise
    split
    · next hfill => exact h.keepPromise_some hfill
    · next hfill => exact h.keepPromise_none hfill
  · rw [heq]
    exact h.makeReady hmax hle responseHeaders body
  · rw [heq]
    exact h.accept hready

theorem paired_run (calls : List Call) : Paired (H3Connection.run {} calls) := by
  suffices ∀ conn, Paired conn → Paired (conn.run calls) from this {} paired_new
  induction calls with
  | nil => exact fun _ h => h
  | cons call calls ih => exact fun conn h => ih _ (h.exec call)

/-- The IDs of delivered pushes were advertised. Each is delivered at most once, no second push
stream is accepted for it, and a push carries the headers of its promise, if and only if the
server opens one push stream for an ID and the promise has come before the push is taken. -/
theorem pushes_paired_iff (calls : List Call) :
    (∀ before push after,
      (H3Connection.run {} calls).history = before ++ .accepted push :: after →
      WithinLimit before push.pushId) ∧
    (((completedIds (H3Connection.run {} calls).history).Nodup ∧
        (acceptedIds (H3Connection.run {} calls).history).Nodup ∧
        ∀ before push after,
          (H3Connection.run {} calls).history = before ++ .accepted push :: after →
          .promised push.pushId push.requestHeaders ∈ before) ↔
      (completedIds (H3Connection.run {} calls).history).Nodup ∧
        ∀ before push after,
          (H3Connection.run {} calls).history = before ++ .accepted push :: after →
          ∃ headers, .promised push.pushId headers ∈ before) := by
  have hpaired := paired_run calls
  refine ⟨fun before push after heq => (hpaired.delivered before push after heq).1, ?_⟩
  constructor
  · rintro ⟨hcompleted, -, hheaders⟩
    exact ⟨hcompleted, fun before push after heq => ⟨_, hheaders before push after heq⟩⟩
  · rintro ⟨hcompleted, hpromised⟩
    have haccepted := hcompleted
    rw [hpaired.fifo] at haccepted
    refine ⟨hcompleted, (List.nodup_append.mp haccepted).1, fun before push after heq => ?_⟩
    obtain ⟨headers, hmem⟩ := hpromised before push after heq
    exact (hpaired.delivered before push after heq).2 hcompleted headers hmem

def pushStream : UniStreamState := { pushId := some 5, pushResponseHeadersBlock := some [] }

/-- Two push streams with one ID are both delivered, and without the headers of a promise. -/
theorem push_delivered_twice_unpaired :
    (H3Connection.run {} [.sendMaxPushId 16 (.ok ()) (.ok ()), .finish pushStream (.ok []) (.ok []),
        .finish pushStream (.ok []) (.ok []), .accept, .accept,
        .promise 5 (.ok [(ascii ":path", ascii "/a")])]).history =
      [.advertised 16, .completed 5, .completed 5, .accepted ⟨5, [], [], []⟩,
        .accepted ⟨5, [], [], []⟩, .promised 5 [(ascii ":path", ascii "/a")]] := by
  decide +kernel

end Starfish.Http.H3.Client
