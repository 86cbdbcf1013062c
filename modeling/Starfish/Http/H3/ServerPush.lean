import Starfish.Http.H3.Server
import Starfish.Lib.History
import Mathlib.Data.List.Range

/-!
# Server push stays within the limit

Every call consists of three kinds of changes, as far as server push is concerned: changes of
other fields, a MAX_PUSH_ID frame, and the start of a push that the limit allows (`Stable`).
What these keep is kept by every run.
-/

namespace Starfish.Http.H3.Server

open Quic (Bytes)

namespace H3ServerConnection

def pushes (conn : H3ServerConnection) : Nat × Nat × List PushEvent :=
  (conn.peerMaxPushId, conn.nextLocalPushId, conn.history)

structure Stable (P : H3ServerConnection → Prop) : Prop where
  other : ∀ {conn conn'}, conn'.pushes = conn.pushes → P conn → P conn'
  received : ∀ {conn} maxPushId, P conn → P (conn.receiveMaxPushId maxPushId).2
  started : ∀ {conn}, conn.nextLocalPushId ≤ conn.peerMaxPushId → P conn → P conn.startPush

namespace Stable

variable {P : H3ServerConnection → Prop} (h : Stable P)
include h

variable {conn : H3ServerConnection}

theorem applyPeerSettings (hconn : P conn) (settings : List H3Setting)
    (qpack : Except HttpError Unit) : P (conn.applyPeerSettings settings qpack).2 := by
  unfold H3ServerConnection.applyPeerSettings
  split
  · exact hconn
  · split
    · exact hconn
    · exact h.other (by rfl) hconn

theorem processControlFrame (hconn : P conn) (streamId : Nat) (qpack : Except HttpError Unit)
    (frame : H3Frame) :
    P (conn.processControlFrame streamId qpack frame).2 := by
  cases frame with
  | settings list =>
    dsimp only [H3ServerConnection.processControlFrame]
    split
    · exact hconn
    · exact h.applyPeerSettings hconn list qpack
  | maxPushId maxPushId => exact h.received maxPushId hconn
  | _ => exact hconn

theorem processControlFrames (hconn : P conn) (streamId : Nat) (qpack : Except HttpError Unit)
    (frames : List H3Frame) :
    P (H3ServerConnection.processControlFrames streamId qpack conn frames).2 := by
  induction frames generalizing conn with
  | nil => exact hconn
  | cons frame frames ih =>
    have hnext := h.processControlFrame hconn streamId qpack frame
    unfold H3ServerConnection.processControlFrames
    split
    all_goals grind

omit h in
theorem feedQpack (hconn : P conn) (st : UniStreamState)
    (qpack : Except HttpError Unit) : P (conn.feedQpack st qpack).2 := by
  unfold H3ServerConnection.feedQpack
  repeat' split
  all_goals exact hconn

theorem processUniStream (hconn : P conn) (streamId : Nat) (st : UniStreamState) (fin : Bool)
    (qpack : Except HttpError Unit) :
    P (conn.processUniStream streamId st fin qpack).2 := by
  unfold H3ServerConnection.processUniStream
  cases st.streamType with
  | none => exact hconn
  | some streamType =>
    dsimp only
    split
    · cases registerPeerUniStream conn.peerControlStreamId streamId "control" with
      | error e => exact hconn
      | ok slot =>
        have hslot : P { conn with peerControlStreamId := slot } := h.other (by rfl) hconn
        cases UniStreamState.ingestControlFrames st fin with
        | panic => exact hslot
        | error e => exact hslot
        | ok r =>
          have hframes := h.processControlFrames hslot streamId qpack r.2
          grind
    · split
      · cases registerPeerUniStream conn.peerQpackEncoderStreamId streamId "QPACK encoder" with
        | error e => exact hconn
        | ok slot => exact feedQpack (h.other (by rfl) hconn) st qpack
      · split
        · cases registerPeerUniStream conn.peerQpackDecoderStreamId streamId "QPACK decoder" with
          | error e => exact hconn
          | ok slot => exact feedQpack (h.other (by rfl) hconn) st qpack
        · exact hconn

theorem readStream (hconn : P conn) (streamId : Nat) (st : UniStreamState) (reads : List Read) :
    P (H3ServerConnection.readStream streamId conn st reads).2 := by
  induction reads generalizing conn st with
  | nil =>
    unfold H3ServerConnection.readStream
    cases UniStreamState.ingest st [] false with
    | panic => exact hconn
    | error e => exact hconn
    | ok st' =>
      have hnext := h.processUniStream hconn streamId st' false (.ok ())
      grind
  | cons read reads ih =>
    unfold H3ServerConnection.readStream
    cases read.recv with
    | error e => exact hconn
    | ok chunk =>
      dsimp only
      cases UniStreamState.ingest st chunk.1 chunk.2 with
      | panic => exact hconn
      | error e => exact hconn
      | ok st' =>
        have hnext := h.processUniStream hconn streamId st' chunk.2 read.qpack
        dsimp only
        split
        · next heq =>
          rw [heq] at hnext
          split
          · exact hnext
          · exact ih hnext _
        all_goals
          next heq => simpa [heq] using hnext

theorem visit (hconn : P conn) (v : Visit) : P (conn.visit v).2 := by
  have hread := h.readStream
    (show P { conn with uniStreamStates := conn.uniStreamStates.erase v.streamId } from
      h.other (by rfl) hconn) v.streamId
    ((conn.uniStreamStates.find? v.streamId).getD {}) v.reads
  unfold H3ServerConnection.visit
  dsimp only
  split
  · next heq => simpa [heq] using hread
  · next heq => simpa [heq] using hread
  · next heq =>
    rw [heq] at hread
    split
    · exact hread
    · split
      · exact hread
      · exact h.other (by rfl) hread

theorem visitAll (hconn : P conn) (visits : List Visit) :
    P (conn.visitAll visits).2 := by
  induction visits generalizing conn with
  | nil => exact hconn
  | cons v visits ih =>
    have hnext := h.visit hconn v
    unfold H3ServerConnection.visitAll
    split
    all_goals grind

theorem pollControl (hconn : P conn) (poll : Poll) :
    P (conn.pollControl poll).2 := by
  have hnext := h.visitAll hconn poll.visits
  grind [H3ServerConnection.pollControl]

theorem sendPush (hconn : P conn) (call : PushCall) :
    P (conn.sendPush call).2 := by
  have hbefore := h.pollControl hconn call.before
  unfold H3ServerConnection.sendPush
  split
  · exact hconn
  · split
    · next heq => simpa [heq] using hbefore
    · next heq => simpa [heq] using hbefore
    · next heq =>
      rw [heq] at hbefore
      split
      · exact hbefore
      · next hlimit =>
        have hstarted := h.started (by simpa [pushIdWithinLimit] using hlimit) hbefore
        split
        · exact hstarted
        · have hafter := h.pollControl hstarted call.after
          grind

theorem run (hconn : P conn) (calls : List Call) :
    P (conn.run calls) := by
  induction calls generalizing conn with
  | nil => exact hconn
  | cons call calls ih =>
    refine ih ?_
    cases call with
    | poll poll => exact h.pollControl hconn poll
    | push call => exact h.sendPush hconn call

end Stable

end H3ServerConnection

/-! ## Histories -/

def startedIds (history : List PushEvent) : List Nat :=
  history.filterMap fun
    | .started pushId => some pushId
    | .maxPushId _ => none

/-- The largest value of a MAX_PUSH_ID frame, 0 if there was none. -/
def highestLimit (history : List PushEvent) : Nat :=
  history.foldl (fun limit event =>
    match event with
    | .started _ => limit
    | .maxPushId value => max limit value) 0

theorem highestLimit_concat (history : List PushEvent) (event : PushEvent) :
    highestLimit (history ++ [event]) =
      match event with
      | .started _ => highestLimit history
      | .maxPushId value => max (highestLimit history) value := by
  rw [highestLimit, List.foldl_append]
  cases event <;> rfl

theorem highestLimit_of_forall_notMem {history : List PushEvent}
    (h : ∀ value, .maxPushId value ∉ history) : highestLimit history = 0 := by
  induction history using List.reverseRecOn with
  | nil => rfl
  | append_singleton history event ih =>
    grind [highestLimit_concat]

theorem highestLimit_mem {history : List PushEvent} {value : Nat}
    (h : .maxPushId value ∈ history) : .maxPushId (highestLimit history) ∈ history := by
  induction history using List.reverseRecOn generalizing value with
  | nil => simp at h
  | append_singleton history event ih =>
    rw [highestLimit_concat]
    cases event with
    | started pushId =>
      grind
    | maxPushId last =>
      grind [highestLimit_of_forall_notMem]

/-- What a history says about the fields of the connection, and that no push was started beyond
the limit of its time. -/
structure Recorded (conn : H3ServerConnection) : Prop where
  limit : conn.peerMaxPushId = highestLimit conn.history
  ids : startedIds conn.history = List.range conn.nextLocalPushId
  within : ∀ before pushId after, conn.history = before ++ .started pushId :: after →
    pushId ≤ highestLimit before

theorem recorded_new : Recorded {} where
  limit := rfl
  ids := rfl
  within := by simp

theorem receiveMaxPushId_pushes (conn : H3ServerConnection) (maxPushId : Nat) :
    (conn.receiveMaxPushId maxPushId).2.pushes =
      (max conn.peerMaxPushId maxPushId, conn.nextLocalPushId,
        conn.history ++ [.maxPushId maxPushId]) := by
  grind [H3ServerConnection.receiveMaxPushId, updatePeerMaxPushId, H3ServerConnection.pushes]

theorem recorded_received {conn : H3ServerConnection} (h : Recorded conn) (maxPushId : Nat) :
    Recorded (conn.receiveMaxPushId maxPushId).2 := by
  have hpushes := receiveMaxPushId_pushes conn maxPushId
  simp only [H3ServerConnection.pushes, Prod.mk.injEq] at hpushes
  obtain ⟨hmax, hnext, hhistory⟩ := hpushes
  constructor
  · rw [hmax, hhistory, highestLimit_concat, h.limit]
  · rw [hhistory, hnext, ← h.ids]
    simp [startedIds]
  · intro before pushId after heq
    rw [hhistory] at heq
    rcases History.split_concat heq with ⟨-, hevent, -⟩ | ⟨rest, -, hrest⟩
    · cases hevent
    · exact h.within before pushId rest hrest

theorem recorded_started {conn : H3ServerConnection} (h : Recorded conn)
    (hlimit : conn.nextLocalPushId ≤ conn.peerMaxPushId) : Recorded conn.startPush := by
  constructor
  · change conn.peerMaxPushId = highestLimit (conn.history ++ [.started conn.nextLocalPushId])
    rw [highestLimit_concat, h.limit]
  · change startedIds (conn.history ++ [.started conn.nextLocalPushId]) =
      List.range (conn.nextLocalPushId + 1)
    rw [List.range_succ, ← h.ids]
    simp [startedIds]
  · intro before pushId after heq
    rcases History.split_concat heq with ⟨hbefore, hevent, -⟩ | ⟨rest, -, hrest⟩
    all_goals grind [cases Recorded]

theorem recorded_stable : H3ServerConnection.Stable Recorded where
  other heq h := by
    simp only [H3ServerConnection.pushes, Prod.mk.injEq] at heq
    obtain ⟨hmax, hnext, hhistory⟩ := heq
    exact ⟨by rw [hmax, hhistory, h.limit], by rw [hhistory, hnext, h.ids], by
      rw [hhistory]
      exact h.within⟩
  received maxPushId h := recorded_received h maxPushId
  started hlimit h := recorded_started h hlimit

theorem limit_stable (limit : Nat) :
    H3ServerConnection.Stable fun conn => limit ≤ conn.peerMaxPushId where
  other heq h := by
    grind [H3ServerConnection.pushes]
  received := by
    intro conn maxPushId h
    have hmax := congrArg Prod.fst (receiveMaxPushId_pushes conn maxPushId)
    exact Nat.le_trans h (Nat.le_trans (Nat.le_max_left _ maxPushId) (Nat.le_of_eq hmax.symm))
  started _ h := h

/-- In every run the IDs of the pushes are 0, 1, 2, ... and the remembered limit never falls. Each
push was allowed by a MAX_PUSH_ID frame before it if and only if none was started before the
first such frame. -/
theorem pushes_allowed_iff (calls : List Call) :
    startedIds (H3ServerConnection.run {} calls).history =
        List.range (H3ServerConnection.run {} calls).nextLocalPushId ∧
      (∀ more, (H3ServerConnection.run {} calls).peerMaxPushId ≤
        ((H3ServerConnection.run {} calls).run more).peerMaxPushId) ∧
      ((∀ before pushId after,
          (H3ServerConnection.run {} calls).history = before ++ .started pushId :: after →
          ∃ value, .maxPushId value ∈ before ∧ pushId ≤ value) ↔
        ∀ before pushId after,
          (H3ServerConnection.run {} calls).history = before ++ .started pushId :: after →
          ∃ value, .maxPushId value ∈ before) := by
  have hrecorded := recorded_stable.run recorded_new calls
  refine ⟨hrecorded.ids, fun more => (limit_stable _).run (Nat.le_refl _) more, ?_⟩
  constructor
  · intro h before pushId after heq
    obtain ⟨value, hmem, -⟩ := h before pushId after heq
    exact ⟨value, hmem⟩
  · intro h before pushId after heq
    obtain ⟨value, hmem⟩ := h before pushId after heq
    exact ⟨highestLimit before, highestLimit_mem hmem, hrecorded.within before pushId after heq⟩

/-- The first push is started although no MAX_PUSH_ID frame has been received. -/
theorem push_without_limit :
    (H3ServerConnection.sendPush {} {}).1 = .ok 0 ∧
      (H3ServerConnection.run {} [.push {}]).history = [.started 0] := by
  decide +kernel

end Starfish.Http.H3.Server
