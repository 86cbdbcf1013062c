import Starfish.Lib.Run
import Starfish.Quic.Packet.Varint
import Starfish.Quic.Transport.StreamManager

/-!
# The stream table over its whole life

Streams are opened by either side, change their states, and are collected when both parts
are done, which lets the peer open new ones. The table here also remembers which streams
were ever created, so that it can be said of a whole run that no identifier is used twice
and that the live streams of the peer stay within the limit it was given at first.
-/

namespace Starfish.Quic

/-- The manager with a record of the streams it has created, in order. -/
structure StreamTable where
  manager : StreamManager
  created : List Nat

namespace StreamTable

def new (side : Side) (maxBidi maxUni initialFlow : Nat) : StreamTable :=
  ⟨.new side maxBidi maxUni initialFlow, []⟩

def insert (t : StreamTable) (id : Nat) (st : StreamState) : StreamTable :=
  ⟨{ t.manager with streams := t.manager.streams.insert id st }, t.created ++ [id]⟩

def openBidi (t : StreamTable) : Except QuicError Nat × StreamTable :=
  if t.manager.maxBidiStreams ≤ t.manager.bidiOpened then
    (.error (.transport .streamLimitError "bidirectional stream limit reached"), t)
  else
    let id := t.manager.nextBidiId
    let st := StreamState.new id .bidirectional true t.manager.peerBidiRemoteSendMax
      t.manager.localBidiLocalRecvMax
    let t := { t with manager := { t.manager with
      nextBidiId := t.manager.nextBidiId + 4
      bidiOpened := t.manager.bidiOpened + 1 } }
    (.ok id, t.insert id st)

def openUni (t : StreamTable) : Except QuicError Nat × StreamTable :=
  if t.manager.maxUniStreams ≤ t.manager.uniOpened then
    (.error (.transport .streamLimitError "unidirectional stream limit reached"), t)
  else
    let id := t.manager.nextUniId
    let st := StreamState.new id .unidirectional true t.manager.peerUniSendMax 0
    let t := { t with manager := { t.manager with
      nextUniId := t.manager.nextUniId + 4
      uniOpened := t.manager.uniOpened + 1 } }
    (.ok id, t.insert id st)

def insertRemote (direction : StreamDirection) (base : Nat) (t : StreamTable) (index : Nat) :
    StreamTable :=
  let id := base + index * 4
  let limits := t.manager.initialLimitsForStream id false
  t.insert id (StreamState.new id direction false limits.1 limits.2)

/-- `accept_stream`: the checks come first, then the streams up to the named one. -/
def acceptStream (t : StreamTable) (id : Nat) : Except QuicError Unit × StreamTable :=
  if (t.manager.get id).isSome then (.ok (), t)
  else if t.manager.isLocalInitiated id then
    (.error (.transport .streamStateError s!"stream {id} is locally initiated"), t)
  else
    let direction := streamDirection id
    let base := t.manager.remoteStreamBase direction
    if id % 4 ≠ base % 4 then
      (.error (.transport .streamStateError
        s!"stream {id} does not match remote {direction.debug} stream numbering"), t)
    else if id < base then
      (.error (.transport .streamStateError
        s!"stream {id} is below remote {direction.debug} stream base {base}"), t)
    else
      let opened := (id - base) / 4 + 1
      let limit := t.manager.remoteLimit direction
      let alreadyOpened := t.manager.remoteOpened direction
      if limit < opened then
        (.error (.transport .streamLimitError
          s!"stream {id} exceeds remote {direction.debug} stream limit {limit}"), t)
      else if opened ≤ alreadyOpened then (.ok (), t)
      else
        let t := (List.range' alreadyOpened (opened - alreadyOpened)).foldl
          (insertRemote direction base) t
        (.ok (), { t with manager := t.manager.setRemoteOpened direction opened })

/-! ## The record does not change the behaviour -/

theorem openBidi_eq (t : StreamTable) :
    t.openBidi = match t.manager.openBidi with
      | .ok (id, m) => (.ok id, ⟨m, t.created ++ [id]⟩)
      | .error e => (.error e, t) := by
  unfold openBidi StreamManager.openBidi
  split <;> rfl

theorem openUni_eq (t : StreamTable) :
    t.openUni = match t.manager.openUni with
      | .ok (id, m) => (.ok id, ⟨m, t.created ++ [id]⟩)
      | .error e => (.error e, t) := by
  unfold openUni StreamManager.openUni
  split <;> rfl

def idsFrom (base first count : Nat) : List Nat := (List.range' first count).map (base + · * 4)

theorem foldl_insertRemote (t : StreamTable) (direction : StreamDirection) (base first count : Nat) :
    (List.range' first count).foldl (insertRemote direction base) t =
      ⟨{ t.manager with streams := t.manager.openRemote direction base first count },
        t.created ++ idsFrom base first count⟩ := by
  induction count with
  | zero =>
    cases t
    simp [StreamManager.openRemote, idsFrom]
  | succ count ih =>
    rw [List.range'_1_concat, List.foldl_concat, ih]
    simp only [insertRemote, insert, StreamManager.openRemote, idsFrom, List.range'_1_concat,
      List.foldl_concat, List.map_append, List.append_assoc]
    rfl

def newIds (m : StreamManager) (id : Nat) : List Nat :=
  if (m.get id).isSome then []
  else idsFrom (m.remoteStreamBase (streamDirection id)) (m.remoteOpened (streamDirection id))
    (id / 4 + 1 - m.remoteOpened (streamDirection id))

theorem acceptStream_eq (t : StreamTable) (id : Nat) :
    t.acceptStream id = match t.manager.acceptStream id with
      | .ok m => (.ok (), ⟨m, t.created ++ newIds t.manager id⟩)
      | .error e => (.error e, t) := by
  unfold acceptStream StreamManager.acceptStream newIds
  by_cases hget : (t.manager.get id).isSome
  · simp [hget]
  by_cases hlocal : t.manager.isLocalInitiated id
  · simp [hget, hlocal]
  have hmod := StreamManager.remote_mod (Bool.eq_false_iff.mpr hlocal)
  simp only [hget, hlocal, foldl_insertRemote, Bool.false_eq_true, if_false,
    show ¬ id % 4 ≠ t.manager.remoteStreamBase (streamDirection id) % 4 by omega,
    show ¬ id < t.manager.remoteStreamBase (streamDirection id) by omega,
    show (id - t.manager.remoteStreamBase (streamDirection id)) / 4 + 1 = id / 4 + 1 by omega]
  split
  · rfl
  · split
    · next hold =>
      have hnone : id / 4 + 1 - t.manager.remoteOpened (streamDirection id) = 0 := by omega
      simp [idsFrom, hnone]
    · rfl

/-! ## What holds of the table -/

def liveRemote (m : StreamManager) (direction : StreamDirection) : Nat :=
  m.streams.keys.countP fun id => !m.isLocalInitiated id && streamDirection id == direction

/-- The streams created are those opened so far in each class, and the live ones are among them.
Each stream of the peer that is no longer live has raised its limit by one at most. -/
structure Consistent (initial : StreamDirection → Nat) (t : StreamTable) : Prop where
  nextBidi : t.manager.nextBidiId =
    StreamManager.localStreamBase t.manager.side .bidirectional + 4 * t.manager.bidiOpened
  nextUni : t.manager.nextUniId =
    StreamManager.localStreamBase t.manager.side .unidirectional + 4 * t.manager.uniOpened
  created_iff : ∀ id, id ∈ t.created ↔ id / 4 < t.manager.openedCount id
  created_nodup : t.created.Nodup
  live_created : ∀ id, (t.manager.get id).isSome → id ∈ t.created
  opened_le : ∀ d, t.manager.remoteOpened d ≤ t.manager.remoteLimit d
  limit_le : ∀ d, t.manager.remoteLimit d ≤ u64Max
  live_le : ∀ d, t.manager.remoteLimit d + liveRemote t.manager d ≤
    initial d + t.manager.remoteOpened d

theorem new_consistent (side : Side) {maxBidi maxUni : Nat} (initialFlow : Nat)
    (hbidi : maxBidi ≤ u64Max) (huni : maxUni ≤ u64Max) :
    (new side maxBidi maxUni initialFlow).Consistent
      ((new side maxBidi maxUni initialFlow).manager.remoteLimit) where
  nextBidi := by cases side <;> rfl
  nextUni := by cases side <;> rfl
  created_iff := by
    intro id
    have hcount : (new side maxBidi maxUni initialFlow).manager.openedCount id = 0 := by
      unfold StreamManager.openedCount StreamManager.localOpened StreamManager.remoteOpened
      split <;> split <;> rfl
    rw [hcount]
    exact iff_of_false List.not_mem_nil (Nat.not_lt_zero _)
  created_nodup := List.nodup_nil
  live_created := nofun
  opened_le := fun d => by cases d <;> exact Nat.zero_le _
  limit_le := fun d => by cases d <;> assumption
  live_le := fun d => by cases d <;> exact Nat.le_refl _

def Appends (t t' : StreamTable) (ids : List Nat) : Prop :=
  t'.created = t.created ++ ids ∧
    ∀ id, (t'.manager.get id).isSome → (t.manager.get id).isSome ∨ id ∈ ids

structure Next (initial : StreamDirection → Nat) (t t' : StreamTable) : Prop where
  consistent : t'.Consistent initial
  appends : ∃ ids, Appends t t' ids

section

variable {initial : StreamDirection → Nat} {t : StreamTable} {m : StreamManager}

theorem Consistent.next (h : t.Consistent initial) : Next initial t t :=
  ⟨h, [], (List.append_nil _).symm, fun _ hid => .inl hid⟩

theorem Consistent.keep (h : t.Consistent initial) (hside : m.side = t.manager.side)
    (hnextBidi : m.nextBidiId = t.manager.nextBidiId) (hnextUni : m.nextUniId = t.manager.nextUniId)
    (hlocal : ∀ d, m.localOpened d = t.manager.localOpened d)
    (hremote : ∀ d, m.remoteOpened d = t.manager.remoteOpened d)
    (hget : ∀ id, (m.get id).isSome → (t.manager.get id).isSome)
    (hlimit : ∀ d, t.manager.remoteLimit d ≤ m.remoteLimit d ∧ m.remoteLimit d ≤ u64Max)
    (hlive : ∀ d, m.remoteLimit d + liveRemote m d ≤
      t.manager.remoteLimit d + liveRemote t.manager d) :
    Next initial t ⟨m, t.created⟩ where
  consistent.nextBidi := by
    rw [hnextBidi, hside, h.nextBidi]
    exact congrArg _ (congrArg _ (hlocal .bidirectional).symm)
  consistent.nextUni := by
    rw [hnextUni, hside, h.nextUni]
    exact congrArg _ (congrArg _ (hlocal .unidirectional).symm)
  consistent.created_iff := by
    intro id
    have hclass : m.isLocalInitiated id = t.manager.isLocalInitiated id := by
      rw [StreamManager.isLocalInitiated, StreamManager.isLocalInitiated, hside]
    rw [StreamManager.openedCount, hclass, hlocal, hremote]
    exact h.created_iff id
  consistent.created_nodup := h.created_nodup
  consistent.live_created := fun id hid => h.live_created id (hget id hid)
  consistent.opened_le := fun d => by
    rw [hremote]
    exact (h.opened_le d).trans (hlimit d).1
  consistent.limit_le := fun d => (hlimit d).2
  consistent.live_le := fun d => by
    rw [hremote]
    exact (hlive d).trans (h.live_le d)
  appends := ⟨[], (List.append_nil _).symm, fun id hid => .inl (hget id hid)⟩

theorem Consistent.sameKeys (h : t.Consistent initial) (hside : m.side = t.manager.side)
    (hnextBidi : m.nextBidiId = t.manager.nextBidiId) (hnextUni : m.nextUniId = t.manager.nextUniId)
    (hlocal : ∀ d, m.localOpened d = t.manager.localOpened d)
    (hremote : ∀ d, m.remoteOpened d = t.manager.remoteOpened d)
    (hlimit : ∀ d, m.remoteLimit d = t.manager.remoteLimit d)
    (hkeys : m.streams.keys = t.manager.streams.keys) : Next initial t ⟨m, t.created⟩ := by
  apply h.keep hside hnextBidi hnextUni hlocal hremote
  · intro id hid
    have hmem := OrdMap.mem_keys_iff.mpr hid
    rw [hkeys] at hmem
    exact OrdMap.mem_keys_iff.mp hmem
  · intro d
    rw [hlimit]
    exact ⟨Nat.le_refl _, h.limit_le d⟩
  · grind [StreamManager.isLocalInitiated, liveRemote]

theorem Consistent.create (h : t.Consistent initial) {ids : List Nat}
    (hside : m.side = t.manager.side)
    (hnextBidi : m.nextBidiId =
      StreamManager.localStreamBase m.side .bidirectional + 4 * m.bidiOpened)
    (hnextUni : m.nextUniId = StreamManager.localStreamBase m.side .unidirectional + 4 * m.uniOpened)
    (hlimit : ∀ d, m.remoteLimit d = t.manager.remoteLimit d)
    (hopened : ∀ d, m.remoteOpened d ≤ m.remoteLimit d)
    (hcount : ∀ id, t.manager.openedCount id ≤ m.openedCount id)
    (hids : ∀ id, id ∈ ids ↔ t.manager.openedCount id ≤ id / 4 ∧ id / 4 < m.openedCount id)
    (hnodup : ids.Nodup) (hkeys : m.streams.keys.Perm (ids ++ t.manager.streams.keys))
    (hnew : ∀ d, ids.countP (fun id => !t.manager.isLocalInitiated id && streamDirection id == d) +
      t.manager.remoteOpened d = m.remoteOpened d) :
    Next initial t ⟨m, t.created ++ ids⟩ where
  consistent.nextBidi := hnextBidi
  consistent.nextUni := hnextUni
  consistent.created_iff := by
    intro id
    have hle := hcount id
    rw [List.mem_append, h.created_iff, hids]
    dsimp only
    omega
  consistent.created_nodup := by
    rw [List.nodup_append]
    refine ⟨h.created_nodup, hnodup, fun id hold id' hid heq => ?_⟩
    subst heq
    have hlt := (h.created_iff id).mp hold
    have hge := ((hids id).mp hid).1
    omega
  consistent.live_created := by
    intro id hid
    have hmem := hkeys.mem_iff.mp (OrdMap.mem_keys_iff.mpr hid)
    rw [List.mem_append] at hmem ⊢
    exact hmem.symm.imp (fun hmem => h.live_created id (OrdMap.mem_keys_iff.mp hmem))
      fun hmem => hmem
  consistent.opened_le := hopened
  consistent.limit_le := fun d => by
    rw [hlimit]
    exact h.limit_le d
  appends := by
    refine ⟨ids, rfl, fun id hid => ?_⟩
    have hmem := List.mem_append.mp (hkeys.mem_iff.mp (OrdMap.mem_keys_iff.mpr hid))
    exact hmem.symm.imp OrdMap.mem_keys_iff.mp fun hnew => hnew
  consistent.live_le := fun d => by
    have hclass : m.isLocalInitiated = t.manager.isLocalInitiated := by
      grind [StreamManager.isLocalInitiated]
    have hle := h.live_le d
    have hnew := hnew d
    have hlive : liveRemote m d =
        ids.countP (fun id => !t.manager.isLocalInitiated id && streamDirection id == d) +
          liveRemote t.manager d := by
      rw [liveRemote, liveRemote, hkeys.countP_eq, List.countP_append, hclass]
    dsimp only
    rw [hlimit, hlive]
    omega

end

/-! ## Opening streams -/

section

variable {initial : StreamDirection → Nat} {t : StreamTable} {m : StreamManager}

theorem Consistent.nextId (h : t.Consistent initial) : ∀ d, t.manager.nextId d =
    StreamManager.localStreamBase t.manager.side d + 4 * t.manager.localOpened d
  | .bidirectional => h.nextBidi
  | .unidirectional => h.nextUni

theorem Consistent.openLocal (h : t.Consistent initial) {direction : StreamDirection} {id : Nat}
    (hopen : t.manager.OpensLocal direction id m) : Next initial t ⟨m, t.created ++ [id]⟩ := by
  have hnext := hopen.nextId_eq h.nextId
  obtain ⟨hclass, hdirection, hdiv⟩ := hopen.class_eq h.nextId
  have hcount : ∀ j, m.openedCount j =
      if t.manager.isLocalInitiated j = true ∧ streamDirection j = direction
      then t.manager.openedCount j + 1 else t.manager.openedCount j := by
    intro j
    rw [StreamManager.openedCount, StreamManager.openedCount, hopen.isLocalInitiated,
      hopen.localOpened, hopen.remoteOpened]
    cases t.manager.isLocalInitiated j <;> by_cases hd : streamDirection j = direction <;> simp
  have hopened : t.manager.openedCount id = t.manager.localOpened direction := by
    rw [StreamManager.openedCount, if_pos hclass, hdirection]
  have hfree : t.manager.streams.find? id = none := by
    rw [← Option.not_isSome_iff_eq_none]
    intro hlive
    have hlt := (h.created_iff id).mp (h.live_created id hlive)
    omega
  apply h.create hopen.side (hnext .bidirectional) (hnext .unidirectional)
    (congrFun hopen.remoteLimit)
  · intro d
    rw [hopen.remoteOpened, hopen.remoteLimit]
    exact h.opened_le d
  · intro j
    rw [hcount]
    split <;> omega
  · intro j
    rw [List.mem_singleton, hcount]
    constructor
    · grind
    · intro hj
      split at hj
      · next hsame =>
        have hj' : t.manager.openedCount j = t.manager.localOpened direction := by
          rw [StreamManager.openedCount, if_pos hsame.1, hsame.2]
        grind [StreamManager.eq_of_class_of_div]
      · omega
  · exact List.nodup_singleton id
  · rw [hopen.streams hdirection]
    exact OrdMap.keys_insert_perm _ hfree
  · intro d
    simp [hclass, hopen.remoteOpened]

theorem idsFrom_nodup (base first count : Nat) : (idsFrom base first count).Nodup := by
  apply List.Nodup.map _ List.nodup_range'
  intro i j hij
  dsimp only at hij
  omega

theorem mem_idsFrom {base first count id : Nat} :
    id ∈ idsFrom base first count ↔ ∃ n, first ≤ n ∧ n < first + count ∧ id = base + n * 4 := by
  simp only [idsFrom, List.mem_map, List.mem_range'_1, and_assoc, eq_comm]

theorem openRemote_keys (m : StreamManager) (direction : StreamDirection) {base first count : Nat}
    (hfree : ∀ id ∈ idsFrom base first count, m.streams.find? id = none) :
    (m.openRemote direction base first count).keys.Perm
      (idsFrom base first count ++ m.streams.keys) := by
  induction count with
  | zero => exact List.Perm.refl _
  | succ count ih =>
    have hids : idsFrom base first (count + 1) =
        idsFrom base first count ++ [base + (first + count) * 4] := by
      simp [idsFrom, List.range'_1_concat]
    rw [hids, List.forall_mem_append, List.forall_mem_singleton] at hfree
    have hlast : ((m.openRemote direction base first count).find? (base + (first + count) * 4)) =
        none := by
      obtain ⟨⟨n, -, hlt, heq⟩, -⟩ | ⟨-, hsame⟩ :=
        m.openRemote_find? direction base first count (base + (first + count) * 4)
      · omega
      · rw [hsame, hfree.2]
    simp only [StreamManager.openRemote, List.range'_1_concat, List.foldl_concat]
    apply (OrdMap.keys_insert_perm _ hlast).trans
    grind

theorem remoteStreamBase_class (m : StreamManager) (direction : StreamDirection) (n : Nat) :
    m.isLocalInitiated (m.remoteStreamBase direction + n * 4) = false ∧
      streamDirection (m.remoteStreamBase direction + n * 4) = direction := by
  have hmod : (m.remoteStreamBase direction + n * 4) % 4 = m.remoteStreamBase direction % 4 := by
    omega
  obtain ⟨hclass, hdirection⟩ := StreamManager.class_congr (m := m) hmod
  rw [hclass, hdirection]
  cases hside : m.side <;> cases direction <;>
    simp [StreamManager.isLocalInitiated, StreamManager.remoteStreamBase, streamInitiator,
      streamDirection, hside]

theorem openRemoteUpTo_streams (m : StreamManager) (direction : StreamDirection) (opened : Nat) :
    (m.openRemoteUpTo direction opened).streams =
      m.openRemote direction (m.remoteStreamBase direction) (m.remoteOpened direction)
        (opened - m.remoteOpened direction) := by
  cases direction <;> rfl

theorem remoteOpened_setRemoteOpened (m : StreamManager) (direction d : StreamDirection) (n : Nat) :
    (m.setRemoteOpened direction n).remoteOpened d =
      if d = direction then n else m.remoteOpened d := by
  cases direction <;> cases d <;> rfl

theorem Consistent.openRemoteUpTo (h : t.Consistent initial) (direction : StreamDirection)
    {opened : Nat} (hnew : t.manager.remoteOpened direction ≤ opened)
    (hlimit : opened ≤ t.manager.remoteLimit direction) :
    Next initial t ⟨t.manager.openRemoteUpTo direction opened,
      t.created ++ idsFrom (t.manager.remoteStreamBase direction) (t.manager.remoteOpened direction)
        (opened - t.manager.remoteOpened direction)⟩ := by
  have hids : ∀ id, id ∈ idsFrom (t.manager.remoteStreamBase direction)
      (t.manager.remoteOpened direction) (opened - t.manager.remoteOpened direction) ↔
        (t.manager.isLocalInitiated id = false ∧ streamDirection id = direction) ∧
          t.manager.remoteOpened direction ≤ id / 4 ∧ id / 4 < opened := by
    intro id
    have hbase := t.manager.remoteStreamBase_lt direction
    rw [mem_idsFrom]
    constructor
    · rintro ⟨n, hfirst, hlast, rfl⟩
      exact ⟨remoteStreamBase_class _ _ _, by omega, by omega⟩
    · rintro ⟨⟨hclass, rfl⟩, hfirst, hlast⟩
      have hmod := StreamManager.remote_mod hclass
      exact ⟨id / 4, hfirst, by omega, by omega⟩
  have hcount : ∀ id, (t.manager.openRemoteUpTo direction opened).openedCount id =
      if t.manager.isLocalInitiated id = false ∧ streamDirection id = direction then opened
      else t.manager.openedCount id := fun id =>
    StreamManager.openedCount_setRemoteOpened _ direction opened id
  have hopenedCount : ∀ id, t.manager.isLocalInitiated id = false ∧ streamDirection id = direction →
      t.manager.openedCount id = t.manager.remoteOpened direction := by
    grind [StreamManager.openedCount]
  have hremote : ∀ d, (t.manager.openRemoteUpTo direction opened).remoteOpened d =
      if d = direction then opened else t.manager.remoteOpened d := fun d =>
    remoteOpened_setRemoteOpened _ direction d opened
  have hlimits : ∀ d, (t.manager.openRemoteUpTo direction opened).remoteLimit d =
      t.manager.remoteLimit d := by
    intro d
    cases direction <;> cases d <;> rfl
  have hfree : ∀ id ∈ idsFrom (t.manager.remoteStreamBase direction)
      (t.manager.remoteOpened direction) (opened - t.manager.remoteOpened direction),
      t.manager.streams.find? id = none := by
    intro id hid
    obtain ⟨hclass, hfirst, -⟩ := (hids id).mp hid
    rw [← Option.not_isSome_iff_eq_none]
    intro hlive
    have hlt := (h.created_iff id).mp (h.live_created id hlive)
    rw [hopenedCount id hclass] at hlt
    omega
  apply h.create
  · cases direction <;> rfl
  · cases direction <;> exact h.nextBidi
  · cases direction <;> exact h.nextUni
  · exact hlimits
  · intro d
    rw [hremote, hlimits]
    split
    · next heq =>
      rw [heq]
      exact hlimit
    · exact h.opened_le d
  · grind
  · grind
  · exact idsFrom_nodup _ _ _
  · rw [openRemoteUpTo_streams]
    exact openRemote_keys _ direction hfree
  · intro d
    rw [hremote]
    by_cases hd : d = direction
    · subst hd
      rw [if_pos rfl, List.countP_eq_length.mpr]
      all_goals grind [idsFrom]
    · rw [if_neg hd, List.countP_eq_zero.mpr, Nat.zero_add]
      grind

theorem acceptStream_le_limit {id : Nat}
    (hm : t.manager.acceptStream id = .ok m) (hfree : (t.manager.get id).isSome = false) :
    id / 4 + 1 ≤ t.manager.remoteLimit (streamDirection id) := by
  grind [StreamManager.acceptStream, StreamManager.remote_mod]

theorem Consistent.acceptStream (h : t.Consistent initial) {id : Nat}
    (hm : t.manager.acceptStream id = .ok m) :
    Next initial t ⟨m, t.created ++ newIds t.manager id⟩ := by
  obtain ⟨hlive, rfl⟩ | ⟨hremote, hlt, rfl⟩ | ⟨hremote, hle, hm'⟩ :=
    StreamManager.acceptStream_cases hm
  · rw [newIds, if_pos hlive, List.append_nil]
    exact h.next
  · have hnone : newIds t.manager id = [] := by
      rw [newIds, show id / 4 + 1 - t.manager.remoteOpened (streamDirection id) = 0 by omega]
      split <;> rfl
    rw [hnone, List.append_nil]
    exact h.next
  · have hfree : (t.manager.get id).isSome = false := by
      grind [cases Consistent, StreamManager.openedCount]
    rw [hm', newIds, hfree]
    exact h.openRemoteUpTo (streamDirection id) (by omega) (acceptStream_le_limit hm hfree)

end

/-! ## Collecting streams -/

def retired (m : StreamManager) (direction : StreamDirection) : Nat :=
  (m.streams.entries.filter fun e => StreamManager.isClosed e.2 && !m.isLocalInitiated e.1 &&
    streamDirection e.1 == direction).length

theorem gcClosedStreams_limit (m : StreamManager) (direction : StreamDirection) :
    m.gcClosedStreams.2.remoteLimit direction =
      saturatingAdd (m.remoteLimit direction) (retired m direction) := by
  cases direction <;> rfl

theorem gcClosedStreams_live (m : StreamManager) (direction : StreamDirection) :
    liveRemote m.gcClosedStreams.2 direction + retired m direction = liveRemote m direction := by
  have hkeys : m.gcClosedStreams.2.streams.keys =
      (m.streams.entries.filter fun e => !StreamManager.isClosed e.2).map Prod.fst := rfl
  have hclass : m.gcClosedStreams.2.isLocalInitiated = m.isLocalInitiated := rfl
  rw [liveRemote, liveRemote, retired, hkeys, hclass, OrdMap.keys, List.countP_map, List.countP_map,
    List.countP_eq_countP_filter_add m.streams.entries _ fun e => !StreamManager.isClosed e.2,
    ← List.countP_eq_length_filter]
  congr 1
  rw [List.countP_filter]
  grind

theorem gcClosedStreams_get {m : StreamManager} {id : Nat}
    (h : (m.gcClosedStreams.2.get id).isSome) : (m.get id).isSome := by
  rw [StreamManager.get, Option.isSome_iff_exists] at h ⊢
  obtain ⟨st, hst⟩ := h
  have hmem := OrdMap.find?_eq_some_iff.mp hst
  exact ⟨st, OrdMap.find?_eq_some_iff.mpr (List.mem_of_mem_filter hmem)⟩

theorem Consistent.gcClosedStreams {initial : StreamDirection → Nat} {t : StreamTable}
    (h : t.Consistent initial) : Next initial t ⟨t.manager.gcClosedStreams.2, t.created⟩ := by
  apply h.keep (m := t.manager.gcClosedStreams.2) rfl rfl rfl
  · intro d
    cases d <;> rfl
  · intro d
    cases d <;> rfl
  · exact fun _ => gcClosedStreams_get
  · intro d
    have hlimit := h.limit_le d
    rw [gcClosedStreams_limit, saturatingAdd]
    omega
  · grind [gcClosedStreams_live, gcClosedStreams_limit, saturatingAdd]

end StreamTable

/-! ## Runs -/

/-- Calls of the stream manager. A change of a stream goes through `get_mut`. -/
inductive TableEvent
  | openBidi
  | openUni
  | acceptStream (id : Nat)
  | changeStream (id : Nat) (st : StreamState)
  | gcClosedStreams
  | updateMaxBidiStreams (limit : Nat)
  | updateMaxUniStreams (limit : Nat)
  | takeMaxStreamsUpdates
  | applyPeerInitialLimits (bidiLocalSendMax bidiRemoteSendMax uniSendMax maxBidi maxUni : Nat)

inductive TableResponse
  | opened (id : Nat)
  | done
  | collected (count : Nat)
  | updates (bidi uni : Option Nat)
  | failed (e : QuicError)

namespace StreamTable

def withManager (t : StreamTable) (m : StreamManager) : StreamTable := { t with manager := m }

def answer {α : Type} (ok : α → TableResponse) :
    Except QuicError α × StreamTable → TableResponse × StreamTable
  | (.ok a, t) => (ok a, t)
  | (.error e, t) => (.failed e, t)

theorem answer_step {α : Type} {ok : α → TableResponse} {x : Except QuicError α × StreamTable}
    {r : TableResponse} {t : StreamTable} (h : some (answer ok x) = some (r, t)) : t = x.2 := by
  obtain ⟨result, t'⟩ := x
  cases result <;> (cases h; rfl)

def step (t : StreamTable) : TableEvent → Option (TableResponse × StreamTable)
  | .openBidi => some (answer .opened t.openBidi)
  | .openUni => some (answer .opened t.openUni)
  | .acceptStream id => some (answer (fun _ => .done) (t.acceptStream id))
  | .changeStream id st =>
    match t.manager.get id with
    | some _ => some (.done, t.withManager (t.manager.set id st))
    | none => none
  | .gcClosedStreams =>
    let (count, m) := t.manager.gcClosedStreams
    some (.collected count, t.withManager m)
  | .updateMaxBidiStreams limit =>
    some (.done, t.withManager (t.manager.updateMaxBidiStreams limit))
  | .updateMaxUniStreams limit => some (.done, t.withManager (t.manager.updateMaxUniStreams limit))
  | .takeMaxStreamsUpdates =>
    let ((bidi, uni), m) := t.manager.takeMaxStreamsUpdates
    some (.updates bidi uni, t.withManager m)
  | .applyPeerInitialLimits bidiLocalSendMax bidiRemoteSendMax uniSendMax maxBidi maxUni =>
    some (.done, t.withManager (t.manager.applyPeerInitialLimits bidiLocalSendMax bidiRemoteSendMax
      uniSendMax maxBidi maxUni))

def localLimit (m : StreamManager) : StreamDirection → Nat
  | .bidirectional => m.maxBidiStreams
  | .unidirectional => m.maxUniStreams

section

variable {initial : StreamDirection → Nat} {t t' : StreamTable}

theorem Consistent.openBidi (h : t.Consistent initial) : Next initial t t.openBidi.2 := by
  rw [openBidi_eq]
  split
  · next hopen => exact h.openLocal (StreamManager.openBidi_opensLocal hopen)
  · exact h.next

theorem Consistent.openUni (h : t.Consistent initial) : Next initial t t.openUni.2 := by
  rw [openUni_eq]
  split
  · next hopen => exact h.openLocal (StreamManager.openUni_opensLocal hopen)
  · exact h.next

theorem Consistent.accept (h : t.Consistent initial) (id : Nat) :
    Next initial t (t.acceptStream id).2 := by
  rw [acceptStream_eq]
  split
  · next hm => exact h.acceptStream hm
  · exact h.next

theorem Consistent.step (h : t.Consistent initial) {e : TableEvent} {r : TableResponse}
    (hstep : t.step e = some (r, t')) : Next initial t t' := by
  cases e with
  | openBidi =>
    rw [answer_step hstep]
    exact h.openBidi
  | openUni =>
    rw [answer_step hstep]
    exact h.openUni
  | acceptStream id =>
    rw [answer_step hstep]
    exact h.accept id
  | changeStream id st =>
    simp only [StreamTable.step] at hstep
    split at hstep
    · next old hold =>
      cases hstep
      have hlive : (t.manager.get id).isSome := Option.isSome_iff_exists.mpr ⟨old, hold⟩
      refine h.sameKeys rfl rfl rfl (fun _ => rfl) (fun _ => rfl) (fun _ => rfl) ?_
      exact OrdMap.keys_insert_of_isSome st hlive
    · cases hstep
  | gcClosedStreams =>
    cases hstep
    exact h.gcClosedStreams
  | updateMaxBidiStreams limit =>
    cases hstep
    unfold StreamManager.updateMaxBidiStreams
    split
    · refine h.sameKeys rfl rfl rfl ?_ ?_ ?_ rfl
      all_goals
        intro d
        cases d <;> rfl
    · exact h.next
  | updateMaxUniStreams limit =>
    cases hstep
    unfold StreamManager.updateMaxUniStreams
    split
    · refine h.sameKeys rfl rfl rfl ?_ ?_ ?_ rfl
      all_goals
        intro d
        cases d <;> rfl
    · exact h.next
  | takeMaxStreamsUpdates =>
    cases hstep
    refine h.sameKeys rfl rfl rfl ?_ ?_ ?_ rfl
    all_goals
      intro d
      cases d <;> rfl
  | applyPeerInitialLimits bidiLocalSendMax bidiRemoteSendMax uniSendMax maxBidi maxUni =>
    cases hstep
    refine h.sameKeys rfl rfl rfl ?_ ?_ ?_ (OrdMap.keys_map _ _)
    all_goals
      intro d
      cases d <;> rfl

end

structure OpenedWithin (t t' : StreamTable) (id : Nat) (d : StreamDirection) : Prop where
  isLocal : t.manager.isLocalInitiated id = true
  direction : streamDirection id = d
  opened_eq : t'.manager.localOpened d = t.manager.localOpened d + 1
  opened_le : t'.manager.localOpened d ≤ localLimit t.manager d
  next_le : localLimit t.manager d ≤ maxVarint → id + 4 ≤ u64Max

theorem openedWithin_of_lt {t t' : StreamTable} {id : Nat} {d : StreamDirection}
    (hid : id = StreamManager.localStreamBase t.manager.side d + 4 * t.manager.localOpened d)
    (hopened : t'.manager.localOpened d = t.manager.localOpened d + 1)
    (hlimit : t.manager.localOpened d < localLimit t.manager d) : OpenedWithin t t' id d := by
  obtain ⟨hclass, hdirection⟩ := t.manager.localStreamBase_class d (t.manager.localOpened d)
  rw [← hid] at hclass hdirection
  refine ⟨hclass, hdirection, hopened, by omega, fun hmax => ?_⟩
  grind [StreamManager.localStreamBase_lt, maxVarint, u64Max]

theorem step_opened {initial : StreamDirection → Nat} {t t' : StreamTable} {e : TableEvent} {id : Nat}
    (h : t.Consistent initial) (hstep : t.step e = some (.opened id, t')) :
    ∃ d, OpenedWithin t t' id d := by
  cases e with
  | openBidi =>
    rw [step, openBidi] at hstep
    split at hstep
    · cases hstep
    · next hlimit =>
      cases hstep
      exact ⟨.bidirectional, openedWithin_of_lt h.nextBidi rfl (Nat.lt_of_not_le hlimit)⟩
  | openUni =>
    rw [step, openUni] at hstep
    split at hstep
    · cases hstep
    · next hlimit =>
      cases hstep
      exact ⟨.unidirectional, openedWithin_of_lt h.nextUni rfl (Nat.lt_of_not_le hlimit)⟩
  | acceptStream j =>
    rw [step] at hstep
    cases haccept : t.acceptStream j with
    | mk result t'' =>
      rw [haccept] at hstep
      cases result <;> cases hstep
  | changeStream j st =>
    grind [step]
  | gcClosedStreams | updateMaxBidiStreams | updateMaxUniStreams | takeMaxStreamsUpdates
  | applyPeerInitialLimits => cases hstep

theorem acceptStream_rejected {t t' : StreamTable} {id : Nat} {e : QuicError}
    (h : t.acceptStream id = (.error e, t')) : t' = t := by
  rw [acceptStream_eq] at h
  split at h <;> cases h
  rfl

/-! ## The whole life of a table -/

theorem local_mod {m : StreamManager} {id : Nat} (hlocal : m.isLocalInitiated id = true) :
    id % 4 = StreamManager.localStreamBase m.side (streamDirection id) := by
  grind [StreamManager.isLocalInitiated, StreamManager.localStreamBase, streamInitiator,
    streamDirection]

section

variable {initial : StreamDirection → Nat} {t : StreamTable} (h : t.Consistent initial)
  (d : StreamDirection) (id : Nat)

include h

theorem Consistent.created_local :
    (id ∈ t.created ∧ t.manager.isLocalInitiated id = true ∧ streamDirection id = d) ↔
      ∃ k < t.manager.localOpened d,
        id = StreamManager.localStreamBase t.manager.side d + 4 * k := by
  constructor
  · rintro ⟨hid, hlocal, rfl⟩
    have hlt := (h.created_iff id).mp hid
    rw [StreamManager.openedCount, if_pos hlocal] at hlt
    have hmod := local_mod hlocal
    exact ⟨id / 4, hlt, by omega⟩
  · rintro ⟨k, hk, rfl⟩
    obtain ⟨hlocal, hdirection⟩ := t.manager.localStreamBase_class d k
    have hbase := StreamManager.localStreamBase_lt t.manager.side d
    refine ⟨(h.created_iff _).mpr ?_, hlocal, hdirection⟩
    rw [StreamManager.openedCount, if_pos hlocal, hdirection]
    omega

theorem Consistent.created_remote :
    (id ∈ t.created ∧ t.manager.isLocalInitiated id = false ∧ streamDirection id = d) ↔
      ∃ k < t.manager.remoteOpened d, id = t.manager.remoteStreamBase d + 4 * k := by
  constructor
  · rintro ⟨hid, hremote, rfl⟩
    have hlt := (h.created_iff id).mp hid
    rw [StreamManager.openedCount, hremote] at hlt
    have hmod := StreamManager.remote_mod hremote
    exact ⟨id / 4, hlt, by omega⟩
  · rintro ⟨k, hk, rfl⟩
    obtain ⟨hremote, hdirection⟩ := remoteStreamBase_class t.manager d k
    rw [Nat.mul_comm] at hremote hdirection
    have hbase := t.manager.remoteStreamBase_lt d
    refine ⟨(h.created_iff _).mpr ?_, hremote, hdirection⟩
    rw [StreamManager.openedCount, hremote, hdirection]
    simp only [Bool.false_eq_true, if_false]
    omega

end

/-- In every run from a new table of either side: no stream is created twice, and only created
streams are live. The streams created in each of the four classes are its first ones, as many as
were opened. The peer has opened no more streams than it may, and no more are live than it was
allowed at first. In the next call, a stream that has gone does not come back, a stream of ours is
opened only within the peer's limit, and a rejected stream of the peer changes nothing. -/
theorem stream_table_over_runs {side : Side} {maxBidi maxUni initialFlow : Nat}
    (hbidi : maxBidi ≤ u64Max) (huni : maxUni ≤ u64Max) {tr : List (TableEvent × TableResponse)}
    {t : StreamTable}
    (hrun : Run step (fun _ _ => True) (new side maxBidi maxUni initialFlow) tr t) :
    t.created.Nodup ∧ (∀ id, (t.manager.get id).isSome → id ∈ t.created) ∧
    (∀ d id, (id ∈ t.created ∧ t.manager.isLocalInitiated id = true ∧ streamDirection id = d) ↔
      ∃ k < t.manager.localOpened d,
        id = StreamManager.localStreamBase t.manager.side d + 4 * k) ∧
    (∀ d id, (id ∈ t.created ∧ t.manager.isLocalInitiated id = false ∧ streamDirection id = d) ↔
      ∃ k < t.manager.remoteOpened d, id = t.manager.remoteStreamBase d + 4 * k) ∧
    (∀ d, t.manager.remoteOpened d ≤ t.manager.remoteLimit d ∧
      liveRemote t.manager d ≤ (new side maxBidi maxUni initialFlow).manager.remoteLimit d) ∧
    ∀ e r t', t.step e = some (r, t') →
      (∀ id ∈ t.created, t.manager.get id = none → t'.manager.get id = none) ∧
      (∀ id, r = .opened id → ∃ d, OpenedWithin t t' id d) ∧
      (∀ id err, e = .acceptStream id → r = .failed err → t' = t) := by
  have h : t.Consistent (new side maxBidi maxUni initialFlow).manager.remoteLimit := by
    apply hrun.invariant (I := fun _ t =>
      t.Consistent (new side maxBidi maxUni initialFlow).manager.remoteLimit)
    · exact new_consistent side initialFlow hbidi huni
    · exact fun _ _ _ _ _ hconsistent _ hstep => (hconsistent.step hstep).consistent
  refine ⟨h.created_nodup, h.live_created, fun d id => ?_, fun d id => ?_, fun d => ?_, ?_⟩
  · exact h.created_local d id
  · exact h.created_remote d id
  · have hlive := h.live_le d
    have hopened := h.opened_le d
    exact ⟨hopened, by omega⟩
  · intro e r t' hstep
    refine ⟨fun id hid hgone => ?_, ?_, ?_⟩
    · obtain ⟨ids, hcreated, hlive⟩ := (h.step hstep).appends
      have hnodup := (h.step hstep).consistent.created_nodup
      rw [hcreated, List.nodup_append] at hnodup
      rw [← Option.not_isSome_iff_eq_none]
      intro hback
      obtain hlive | hnew := hlive id hback
      · rw [hgone] at hlive
        cases hlive
      · exact hnodup.2.2 id hid id hnew rfl
    · rintro id rfl
      exact step_opened h hstep
    · rintro id err rfl rfl
      cases haccept : t.acceptStream id with
      | mk result t'' =>
        rw [step, haccept] at hstep
        cases result with
        | ok => cases hstep
        | error e =>
          cases hstep
          exact acceptStream_rejected haccept

def finishedStream : StreamState :=
  { StreamState.new 1 .bidirectional false 100 100 with
    send := some .dataRecvd
    recv := some .dataRead }

/-- A stream of the peer is collected and named again, then the next one is opened. -/
theorem collected_stream_stays_gone :
    ∃ tr t, Run step (fun _ _ => True) (new .client 1 0 100) tr t ∧ t.created = [1, 5] ∧
      t.manager.get 1 = none ∧ t.created.Nodup ∧ liveRemote t.manager .bidirectional ≤ 1 :=
  have hnil : Run step (fun _ _ => True) (new .client 1 0 100) [] (new .client 1 0 100) := .nil
  have hrun := ((((hnil.push (.acceptStream 1) rfl trivial).push
    (.changeStream 1 finishedStream) rfl trivial).push .gcClosedStreams rfl trivial).push
    (.acceptStream 1) rfl trivial).push (.acceptStream 5) rfl trivial
  have h := stream_table_over_runs (by decide) (by decide) hrun
  ⟨_, _, hrun, rfl, rfl, h.1, (h.2.2.2.2.1 .bidirectional).2⟩

end StreamTable

end Starfish.Quic
