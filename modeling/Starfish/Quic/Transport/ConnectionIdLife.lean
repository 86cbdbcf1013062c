import Mathlib.Data.List.Nodup
import Starfish.Quic.Transport.ConnectionId

/-!
# Connection identifiers over whole runs

The manager under any sequence of its operations. An identifier of the peer is marked retired
exactly when its sequence number is below the largest value that the peer has asked us to retire
up to; the active one never is, so that everything retired is reported to the peer and nothing
else is.
-/

namespace Starfish.Quic

namespace ConnectionIdManager

/-! ## Identifiers of the peer -/

structure PeerEntries (m : ConnectionIdManager) : Prop where
  nodup : (m.peer.map (·.sequenceNumber)).Nodup
  retired_iff : ∀ entry ∈ m.peer,
    entry.retired = true ↔ entry.sequenceNumber < m.maxPeerRetirePriorTo

structure PeerCids (m : ConnectionIdManager) : Prop extends PeerEntries m where
  active : ∃ entry, m.peer[m.activePeerCidIndex]? = some entry ∧
    m.maxPeerRetirePriorTo ≤ entry.sequenceNumber

variable {m m' : ConnectionIdManager}

variable {entry : IssuedConnectionId}

theorem PeerEntries.not_retired_iff (h : PeerEntries m) (hentry : entry ∈ m.peer) :
    (!entry.retired) = true ↔ m.maxPeerRetirePriorTo ≤ entry.sequenceNumber := by
  rw [Bool.not_eq_true', ← Bool.not_eq_true, h.retired_iff entry hentry, Nat.not_lt]

theorem rotateAwayFromRetiredActivePeerCid_spec (h : PeerEntries m)
    (hrange : m.activePeerCidIndex < m.peer.length)
    (hlive : ∃ entry ∈ m.peer, m.maxPeerRetirePriorTo ≤ entry.sequenceNumber) :
    ∃ index, m.rotateAwayFromRetiredActivePeerCid = some { m with activePeerCidIndex := index } ∧
      PeerCids { m with activePeerCidIndex := index } := by
  have hactive := List.getElem?_eq_getElem hrange
  unfold rotateAwayFromRetiredActivePeerCid
  rw [hactive]
  dsimp only
  split
  · split
    · next index hindex =>
      obtain ⟨hlt, hkeep, -⟩ := List.findIdx?_eq_some_iff_getElem.mp hindex
      refine ⟨index, rfl, ⟨h.nodup, h.retired_iff⟩, _, List.getElem?_eq_getElem hlt, ?_⟩
      exact (h.not_retired_iff (List.getElem_mem hlt)).mp hkeep
    · next hnone =>
      grind [cases PeerEntries]
  · next hkeep =>
    refine ⟨m.activePeerCidIndex, rfl, ⟨h.nodup, h.retired_iff⟩, _, hactive, ?_⟩
    apply (h.not_retired_iff (List.getElem_mem hrange)).mp
    rw [Bool.not_eq_true] at hkeep
    rw [hkeep]
    rfl

variable {limit retirePriorTo target : Nat} {old : IssuedConnectionId} {draw : Nat → CidDraw}

theorem PeerEntries.retirePeerCidsBelow (h : PeerEntries m)
    (hlimit : m.maxPeerRetirePriorTo ≤ limit) :
    PeerEntries ({ m with maxPeerRetirePriorTo := limit }.retirePeerCidsBelow limit) where
  nodup := by
    dsimp only [ConnectionIdManager.retirePeerCidsBelow]
    rw [List.map_map]
    convert h.nodup using 2
    funext entry
    dsimp only [Function.comp_apply]
    split <;> rfl
  retired_iff := fun entry hentry => by
    obtain ⟨old, hold, rfl⟩ := List.mem_map.mp hentry
    dsimp only [ConnectionIdManager.retirePeerCidsBelow]
    split
    · next hlt => exact ⟨fun _ => hlt, fun _ => rfl⟩
    · next hge =>
      rw [h.retired_iff old hold]
      omega

theorem mem_retirePeerCidsBelow (h : entry ∈ m.peer) :
    ∃ marked ∈ (m.retirePeerCidsBelow limit).peer,
      marked.sequenceNumber = entry.sequenceNumber := by
  refine ⟨_, List.mem_map_of_mem h, ?_⟩
  split <;> rfl

theorem PeerEntries.push (h : PeerEntries m) (entry : IssuedConnectionId)
    (hnew : ∀ old ∈ m.peer, old.sequenceNumber ≠ entry.sequenceNumber)
    (hretired : entry.retired = decide (entry.sequenceNumber < m.maxPeerRetirePriorTo)) :
    PeerEntries { m with peer := m.peer ++ [entry] } where
  nodup := by
    rw [List.map_append, List.map_singleton]
    refine List.nodup_append.mpr ⟨h.nodup, List.nodup_singleton _, ?_⟩
    intro a ha b hb
    obtain ⟨old, hold, rfl⟩ := List.mem_map.mp ha
    rw [List.mem_singleton.mp hb]
    exact hnew old hold
  retired_iff := fun other hother => by
    rcases List.mem_append.mp hother with hold | hlast
    · exact h.retired_iff other hold
    · grind

/-- What registering an identifier leaves alone. -/
structure SameLocal (m m' : ConnectionIdManager) : Prop where
  issued : m'.issued = m.issued
  nextSequence : m'.nextSequence = m.nextSequence
  maxPeerRetirePriorTo : m'.maxPeerRetirePriorTo = m.maxPeerRetirePriorTo

variable {sequenceNumber : Nat}

theorem registerPeerCid_spec (h : PeerEntries m) (hrange : m.activePeerCidIndex < m.peer.length)
    (cid : ConnectionId) (token : Bytes)
    (hlive : (∃ entry ∈ m.peer, m.maxPeerRetirePriorTo ≤ entry.sequenceNumber) ∨ m.maxPeerRetirePriorTo ≤ sequenceNumber)
    :
    ∃ result m', m.registerPeerCid sequenceNumber cid token = some (result, m') ∧
      SameLocal m m' ∧ (result = .ok () → PeerCids m') := by
  unfold registerPeerCid
  split
  · next index hindex =>
    obtain ⟨hlt, hfound, -⟩ := List.findIdx?_eq_some_iff_getElem.mp hindex
    have hsequence : m.peer[index].sequenceNumber = sequenceNumber := eq_of_beq hfound
    have hmem := List.getElem_mem hlt
    rw [List.getElem?_eq_getElem hlt]
    dsimp only
    split
    · exact ⟨_, m, rfl, ⟨rfl, rfl, rfl⟩, fun hok => by cases hok⟩
    · -- an entry that is to be retired has been marked already
      have hsame : (if sequenceNumber < m.maxPeerRetirePriorTo then
          { m with peer := m.peer.set index m.peer[index].retire } else m) = m := by
        split
        · next hbelow =>
          have hretired := (h.retired_iff _ hmem).mpr (hsequence ▸ hbelow)
          have hretire : m.peer[index].retire = m.peer[index] := by
            rw [IssuedConnectionId.retire, ← hretired]
          rw [hretire, List.set_getElem_self]
        · rfl
      rw [hsame]
      have hexists : ∃ entry ∈ m.peer, m.maxPeerRetirePriorTo ≤ entry.sequenceNumber := by
        grind
      obtain ⟨active, hrotate, hcids⟩ := rotateAwayFromRetiredActivePeerCid_spec h hrange hexists
      rw [hrotate]
      exact ⟨_, _, rfl, ⟨rfl, rfl, rfl⟩, fun _ => hcids⟩
  · next hnone =>
    dsimp only
    have hnew : ∀ old ∈ m.peer, old.sequenceNumber ≠ sequenceNumber := by
      grind
    have hpush := h.push ⟨sequenceNumber, cid, some token,
      decide (sequenceNumber < m.maxPeerRetirePriorTo), true⟩ hnew rfl
    obtain ⟨active, hrotate, hcids⟩ := rotateAwayFromRetiredActivePeerCid_spec hpush
      (by rw [List.length_append]; exact Nat.lt_add_right _ hrange) (by
        rcases hlive with ⟨entry, hentry, hle⟩ | hle
        · exact ⟨entry, List.mem_append_left _ hentry, hle⟩
        · exact ⟨_, List.mem_append_right _ (List.mem_singleton.mpr rfl), hle⟩)
    rw [hrotate]
    exact ⟨_, _, rfl, ⟨rfl, rfl, rfl⟩, fun _ => hcids⟩

theorem addPeerCid_spec (h : PeerCids m) (cid : ConnectionId) (token : Bytes)
    (hretire : retirePriorTo ≤ sequenceNumber) :
    ∃ result m', m.addPeerCid sequenceNumber cid token retirePriorTo = some (result, m') ∧
      SameLocal { m with maxPeerRetirePriorTo := max m.maxPeerRetirePriorTo retirePriorTo } m' ∧
      (result = .ok () → PeerCids m') := by
  obtain ⟨active, hactive, hle⟩ := h.active
  have hmarked := h.toPeerEntries.retirePeerCidsBelow
    (Nat.le_max_left m.maxPeerRetirePriorTo retirePriorTo)
  have hrange : m.activePeerCidIndex < m.peer.length := (List.getElem?_eq_some_iff.mp hactive).1
  obtain ⟨result, m', hregister, hsame, hcids⟩ := registerPeerCid_spec hmarked
    (by dsimp only [retirePeerCidsBelow]; rw [List.length_map]; exact hrange) cid token (by
      -- the active identifier stays unless the value has grown, and then the new one is above it
      by_cases hgrown : m.maxPeerRetirePriorTo < retirePriorTo
      · refine .inr (Nat.max_le.mpr ⟨?_, hretire⟩)
        omega
      · obtain ⟨marked, hmem, hsequence⟩ := mem_retirePeerCidsBelow
          (m := { m with maxPeerRetirePriorTo := max m.maxPeerRetirePriorTo retirePriorTo })
          (List.mem_of_getElem? hactive)
        refine .inl ⟨marked, hmem, Nat.max_le.mpr ⟨?_, ?_⟩⟩ <;> omega)
  exact ⟨result, m', hregister, ⟨hsame.issued, hsame.nextSequence, hsame.maxPeerRetirePriorTo⟩,
    hcids⟩

theorem foldl_maxBySequence_mem {xs : List (IssuedConnectionId × Nat)}
    {best : Option (IssuedConnectionId × Nat)} {x : IssuedConnectionId × Nat}
    (h : xs.foldl maxBySequence best = some x) : best = some x ∨ x ∈ xs := by
  induction xs generalizing best with
  | nil => exact .inl h
  | cons y ys ih =>
    rcases ih h with hbest | hmem
    · unfold maxBySequence at hbest
      split at hbest
      · cases hbest
        exact .inr List.mem_cons_self
      · split at hbest
        all_goals grind
    · exact .inr (List.mem_cons_of_mem _ hmem)

theorem PeerCids.rotateActivePeerCid (h : PeerCids m) : PeerCids m.rotateActivePeerCid.2 := by
  unfold ConnectionIdManager.rotateActivePeerCid
  dsimp only
  split
  · next entry index hbest =>
    rcases foldl_maxBySequence_mem hbest with hnone | hmem
    · cases hnone
    · obtain ⟨hzip, hkeep⟩ := List.mem_filter.mp hmem
      have hget := List.mem_zipIdx_iff_getElem?.mp hzip
      rw [Bool.and_eq_true] at hkeep
      refine ⟨⟨h.nodup, h.retired_iff⟩, entry, hget, ?_⟩
      exact (h.not_retired_iff (List.mem_of_getElem? hget)).mp hkeep.2
  · exact h

theorem PeerCids.setActive (h : PeerCids m)
    (entry : IssuedConnectionId) (hold : m.peer[m.activePeerCidIndex]? = some old)
    (hsequence : entry.sequenceNumber = old.sequenceNumber) (hretired : entry.retired = old.retired) :
    PeerCids { m with peer := m.peer.set m.activePeerCidIndex entry } := by
  obtain ⟨active, hactive, hle⟩ := h.active
  have heq : active = old := Option.some.inj (hactive.symm.trans hold)
  obtain ⟨hlt, hget⟩ := List.getElem?_eq_some_iff.mp hold
  have hnumbers : (m.peer.map (·.sequenceNumber)).set m.activePeerCidIndex entry.sequenceNumber =
      m.peer.map (·.sequenceNumber) := by
    have hlength : m.activePeerCidIndex < (m.peer.map (·.sequenceNumber)).length := by
      rw [List.length_map]
      exact hlt
    have hself := List.set_getElem_self hlength
    rwa [List.getElem_map, hget, ← hsequence] at hself
  refine ⟨⟨?_, fun other hother => ?_⟩, entry, List.getElem?_set_self hlt, ?_⟩
  · rw [List.map_set, hnumbers]
    exact h.nodup
  · rcases List.mem_or_eq_of_mem_set hother with hmem | rfl
    · exact h.retired_iff other hmem
    · rw [hretired, hsequence]
      exact h.retired_iff old (List.mem_of_getElem? hold)
  · rw [hsequence, ← heq]
    exact hle

/-! ### Retiring identifiers of the peer -/

def leaves (activeSeq : Nat) (entry : IssuedConnectionId) : Bool :=
  entry.retired && entry.sequenceNumber != activeSeq

theorem foldl_drainTurn (activeSeq : Nat) (entries : List IssuedConnectionId)
    (acc : List Nat × List IssuedConnectionId × Nat) :
    (entries.foldl (drainTurn activeSeq) acc).1 =
        acc.1 ++ (entries.filter (leaves activeSeq)).map (·.sequenceNumber) ∧
      (entries.foldl (drainTurn activeSeq) acc).2.1 =
        acc.2.1 ++ entries.filter (!leaves activeSeq ·) := by
  induction entries generalizing acc with
  | nil => exact ⟨(List.append_nil _).symm, (List.append_nil _).symm⟩
  | cons entry entries ih =>
    cases hleaves : leaves activeSeq entry with
    | true =>
      have hturn : drainTurn activeSeq acc entry =
          (acc.1 ++ [entry.sequenceNumber], acc.2) := if_pos hleaves
      grind
    | false =>
      have hturn : drainTurn activeSeq acc entry = (acc.1, acc.2.1 ++ [entry],
          if entry.sequenceNumber = activeSeq then acc.2.1.length else acc.2.2) :=
        if_neg (by rw [← leaves, hleaves]; exact Bool.false_ne_true)
      grind

theorem foldl_drainTurn_index (activeSeq : Nat) (entries : List IssuedConnectionId)
    (acc : List Nat × List IssuedConnectionId × Nat)
    (h : (∃ entry ∈ entries, entry.sequenceNumber = activeSeq) ∨
      (acc.2.1[acc.2.2]?).map (·.sequenceNumber) = some activeSeq) :
    (((entries.foldl (drainTurn activeSeq) acc).2.1)[(entries.foldl (drainTurn activeSeq)
      acc).2.2]?).map (·.sequenceNumber) = some activeSeq := by
  induction entries generalizing acc with
  | nil =>
    grind
  | cons entry entries ih =>
    apply ih
    by_cases hactive : entry.sequenceNumber = activeSeq
    · right
      have hstays : (entry.retired && entry.sequenceNumber != activeSeq) = false := by
        rw [hactive, bne_self_eq_false, Bool.and_false]
      unfold drainTurn
      rw [hstays, if_neg Bool.false_ne_true]
      rw [if_pos hactive, List.getElem?_concat_length, Option.map_some, hactive]
    · rcases h with ⟨other, hmem, hother⟩ | hseen
      · grind
      · right
        unfold drainTurn
        split
        · exact hseen
        · cases hget : acc.2.1[acc.2.2]? with
          | none =>
            rw [hget] at hseen
            cases hseen
          | some old =>
            have hlt := (List.getElem?_eq_some_iff.mp hget).1
            rw [List.getElem?_append_left hlt]
            exact hseen

theorem takePeerCidsToRetire_spec (h : PeerCids m) :
    ∃ retire m', m.takePeerCidsToRetire = some (retire, m') ∧ PeerCids m' ∧ SameLocal m m' ∧
      retire = (m.peer.filter fun entry =>
        entry.sequenceNumber < m.maxPeerRetirePriorTo).map (·.sequenceNumber) := by
  obtain ⟨active, hactive, hle⟩ := h.active
  have hmem := List.mem_of_getElem? hactive
  have hfold := foldl_drainTurn active.sequenceNumber m.peer ([], [], 0)
  have hindex := foldl_drainTurn_index active.sequenceNumber m.peer ([], [], 0)
    (.inl ⟨active, hmem, rfl⟩)
  rw [takePeerCidsToRetire, hactive, Option.map_some]
  refine ⟨_, _, rfl, ?_, ⟨rfl, rfl, rfl⟩, ?_⟩
  · have hsub : (m.peer.foldl (drainTurn active.sequenceNumber) ([], [], 0)).2.1.Sublist m.peer := by
      rw [hfold.2]
      exact List.filter_sublist
    obtain ⟨entry, hentry, hsequence⟩ := Option.map_eq_some_iff.mp hindex
    exact ⟨⟨h.nodup.sublist (hsub.map _), fun e he => h.retired_iff e (hsub.subset he)⟩, entry,
      hentry, hsequence ▸ hle⟩
  · rw [hfold.1, List.nil_append]
    congr 1
    apply List.filter_congr
    intro entry hentry
    have hiff := h.retired_iff entry hentry
    rw [leaves, Bool.eq_iff_iff, Bool.and_eq_true, bne_iff_ne, decide_eq_true_iff, hiff]
    omega

/-! ## Identifiers of ours -/

/-- The identifiers of ours, when the list may be empty for a moment. A retired one leaves the
list in the operation that retires it. -/
structure Numbered (m : ConnectionIdManager) : Prop where
  nodup : (m.issued.map (·.sequenceNumber)).Nodup
  below : ∀ entry ∈ m.issued, entry.sequenceNumber < m.nextSequence
  kept : ∀ entry ∈ m.issued, entry.retired = false

structure LocalCids (m : ConnectionIdManager) : Prop extends Numbered m where
  nonempty : m.issued ≠ []

theorem Numbered.issueNewCid (h : Numbered m) (draw : CidDraw) :
    LocalCids (m.issueNewCid draw).2 where
  nonempty := List.append_ne_nil_of_right_ne_nil _ (List.cons_ne_nil _ _)
  nodup := by
    dsimp only [ConnectionIdManager.issueNewCid]
    rw [List.map_append, List.map_singleton]
    refine List.nodup_append.mpr ⟨h.nodup, List.nodup_singleton _, ?_⟩
    intro a ha b hb
    obtain ⟨old, hold, rfl⟩ := List.mem_map.mp ha
    rw [List.mem_singleton.mp hb]
    exact Nat.ne_of_lt (h.below old hold)
  below := fun entry hentry => by
    rcases List.mem_append.mp hentry with hold | hlast
    · exact Nat.lt_succ_of_lt (h.below entry hold)
    · rw [List.mem_singleton.mp hlast]
      exact Nat.lt_succ_self _
  kept := fun entry hentry => by
    rcases List.mem_append.mp hentry with hold | hlast
    · exact h.kept entry hold
    · rw [List.mem_singleton.mp hlast]

theorem Numbered.mapPrune (h : Numbered m) {f : IssuedConnectionId → IssuedConnectionId}
    (hf : ∀ entry, (f entry).sequenceNumber = entry.sequenceNumber) :
    Numbered { m with issued := m.issued.map f }.pruneRetiredLocalCids := by
  have hnumbers : (m.issued.map f).map (·.sequenceNumber) = m.issued.map (·.sequenceNumber) := by
    simp_all
  refine ⟨?_, fun entry hentry => ?_, fun entry hentry => ?_⟩
  · have hsub : ((m.issued.map f).filter (!·.retired)).Sublist (m.issued.map f) :=
      List.filter_sublist
    exact h.nodup.sublist (hnumbers ▸ hsub.map (·.sequenceNumber))
  · obtain ⟨old, hold, rfl⟩ := List.mem_map.mp (List.mem_of_mem_filter hentry)
    rw [hf]
    exact h.below old hold
  · have hkeep := (List.mem_filter.mp hentry).2
    rwa [Bool.not_eq_true'] at hkeep

theorem LocalCids.retireLocalCid (h : LocalCids m) (sequenceNumber : Nat) (draw : CidDraw) :
    LocalCids (m.retireLocalCid sequenceNumber draw) := by
  have hpruned := h.mapPrune (f := fun entry =>
    if entry.sequenceNumber = sequenceNumber then entry.retire else entry)
    fun entry => by split <;> rfl
  unfold ConnectionIdManager.retireLocalCid
  dsimp only
  split
  · exact hpruned.issueNewCid draw
  · next hne => exact ⟨hpruned, fun hnil => hne (List.isEmpty_iff.mpr hnil)⟩

theorem LocalCids.takeUnadvertisedLocalCids (h : LocalCids m) :
    LocalCids m.takeUnadvertisedLocalCids.2 := by
  have hpruned := h.mapPrune (f := fun entry =>
    if !entry.retired && !entry.advertisedToPeer then { entry with advertisedToPeer := true }
    else entry) fun entry => by split <;> rfl
  refine ⟨hpruned, ?_⟩
  obtain ⟨entry, hentry⟩ := List.exists_mem_of_ne_nil _ h.nonempty
  refine List.ne_nil_of_mem (List.mem_filter.mpr ⟨List.mem_map_of_mem hentry, ?_⟩)
  grind [cases Numbered, cases LocalCids]

theorem LocalCids.setFirst (h : LocalCids m) (entry : IssuedConnectionId)
    (hold : m.issued[0]? = some old) (hsequence : entry.sequenceNumber = old.sequenceNumber)
    (hretired : entry.retired = old.retired) :
    LocalCids { m with issued := m.issued.set 0 entry } := by
  cases hissued : m.issued with
  | nil => exact absurd hissued h.nonempty
  | cons first rest =>
    rw [hissued] at hold
    cases hold
    have hnodup := h.nodup
    have hbelow := h.below
    have hkept := h.kept
    refine ⟨⟨?_, ?_, ?_⟩, List.cons_ne_nil _ _⟩
    all_goals grind

/-! ## The frames that are generated -/

theorem issueTurn_next (h : issueTurn target draw m = .inl m') :
    m' = (m.issueNewCid (draw m.nextSequence)).2 ∧
      target - m'.activeLocalCidCount < target - m.activeLocalCidCount := by
  grind [issueTurn, activeLocalCidCount, ConnectionIdManager.issueNewCid]

theorem issueTurn_done (h : issueTurn target draw m = .inr m') : m' = m := by
  grind [issueTurn]

structure Managed (m : ConnectionIdManager) : Prop where
  peerCids : PeerCids m
  localCids : LocalCids m

theorem PeerCids.congr (h : PeerCids m) (hpeer : m'.peer = m.peer)
    (hindex : m'.activePeerCidIndex = m.activePeerCidIndex)
    (hmax : m'.maxPeerRetirePriorTo = m.maxPeerRetirePriorTo) : PeerCids m' := by
  refine ⟨⟨?_, ?_⟩, ?_⟩
  · rw [hpeer]
    exact h.nodup
  · rw [hpeer, hmax]
    exact h.retired_iff
  · rw [hpeer, hindex, hmax]
    exact h.active

theorem LocalCids.congr (h : LocalCids m) (hissued : m'.issued = m.issued)
    (hnext : m'.nextSequence = m.nextSequence) : LocalCids m' := by
  refine ⟨⟨?_, ?_, ?_⟩, ?_⟩
  · rw [hissued]
    exact h.nodup
  · rw [hissued, hnext]
    exact h.below
  · rw [hissued]
    exact h.kept
  · rw [hissued]
    exact h.nonempty

theorem issueLoop_spec (h : Managed m) (target : Nat) (draw : Nat → CidDraw) :
    ∃ m', Loop.run (issueTurn target draw) (target + 1) m = some m' ∧ Managed m' ∧
      m'.maxPeerRetirePriorTo = m.maxPeerRetirePriorTo := by
  apply Loop.run_total (I := fun m' => Managed m' ∧
    m'.maxPeerRetirePriorTo = m.maxPeerRetirePriorTo) (fun m => target - m.activeLocalCidCount)
  · rintro m₁ m₂ ⟨hmanaged, hmax⟩ hturn
    obtain ⟨rfl, hlt⟩ := issueTurn_next hturn
    exact ⟨⟨⟨hmanaged.peerCids.congr rfl rfl rfl, hmanaged.localCids.issueNewCid _⟩, hmax⟩, hlt⟩
  · grind [issueTurn_done]
  · exact ⟨h, rfl⟩
  · omega

theorem newConnectionIdFrame_le {retire : Nat} {cid token : Bytes}
    (h : newConnectionIdFrame retirePriorTo entry = some (.newConnectionId sequenceNumber retire cid token)) :
    retire ≤ sequenceNumber := by
  obtain ⟨t, -, heq⟩ := Option.map_eq_some_iff.mp h
  cases heq
  exact Nat.min_le_right _ _

structure ProperUpdates (m : ConnectionIdManager) (frames : List Frame) : Prop where
  newConnectionId : ∀ sequenceNumber retirePriorTo cid token,
    .newConnectionId sequenceNumber retirePriorTo cid token ∈ frames →
      retirePriorTo ≤ sequenceNumber
  retireConnectionId : ∀ n, .retireConnectionId n ∈ frames → n < m.maxPeerRetirePriorTo

theorem generateConnectionIdUpdates_spec (h : Managed m) (parametersApplied connected : Bool)
    (limit : Nat) (draw : Nat → CidDraw) : ∃ frames m',
      m.generateConnectionIdUpdates parametersApplied connected limit draw = some (frames, m') ∧
        Managed m' ∧ m'.maxPeerRetirePriorTo = m.maxPeerRetirePriorTo ∧ ProperUpdates m frames := by
  unfold generateConnectionIdUpdates
  split
  · refine ⟨[], m, rfl, h, rfl, ⟨?_, ?_⟩⟩
    all_goals simp
  · obtain ⟨m₁, hloop, hmanaged, hmax⟩ := issueLoop_spec h (min limit 2) draw
    dsimp only
    rw [hloop]
    dsimp only
    obtain ⟨retire, m₂, htake, hpeer, hsame, hretire⟩ := takePeerCidsToRetire_spec hmanaged.peerCids
    rw [htake]
    have hlocal := (hmanaged.localCids.congr hsame.issued hsame.nextSequence).takeUnadvertisedLocalCids
    refine ⟨_, _, rfl, ⟨hpeer.congr rfl rfl rfl, hlocal⟩, hsame.maxPeerRetirePriorTo.trans hmax,
      ⟨?_, ?_⟩⟩
    · intro sequenceNumber retirePriorTo cid token hmem
      rcases List.mem_append.mp hmem with hmem | hmem
      · grind
      · obtain ⟨entry, -, hframe⟩ := List.mem_filterMap.mp hmem
        exact newConnectionIdFrame_le hframe
    · intro n hmem
      rcases List.mem_append.mp hmem with hmem | hmem
      · grind
      · obtain ⟨entry, -, hframe⟩ := List.mem_filterMap.mp hmem
        obtain ⟨t, -, heq⟩ := Option.map_eq_some_iff.mp hframe
        cases heq

end ConnectionIdManager

/-! ## The machine -/

inductive CidEvent
  | issueNewCid (draw : CidDraw)
  | addPeerCid (sequenceNumber : Nat) (cid : ConnectionId) (token : Bytes) (retirePriorTo : Nat)
  | retireLocalCid (sequenceNumber : Nat) (draw : CidDraw)
  | rotateActivePeerCid
  | takePeerCidsToRetire
  | takeUnadvertisedLocalCids
  | generateConnectionIdUpdates (parametersApplied connected : Bool) (limit : Nat)
      (draw : Nat → CidDraw)
  | setPeerCid (cid : ConnectionId)
  | setPrimaryLocalStatelessResetToken (token : Bytes)
  | setActivePeerStatelessResetToken (token : Bytes)

inductive CidResponse
  | done
  | issued (entry : IssuedConnectionId)
  | refused (error : QuicError)
  | rotated (rotated : Bool)
  | retire (sequenceNumbers : List Nat)
  | unadvertised (entries : List IssuedConnectionId)
  | frames (frames : List Frame)

namespace ConnectionIdManager

variable {m m' : ConnectionIdManager}

/-- One operation; `none` is an index out of range. -/
def step (m : ConnectionIdManager) : CidEvent → Option (CidResponse × ConnectionIdManager)
  | .issueNewCid draw => some (.issued (m.issueNewCid draw).1, (m.issueNewCid draw).2)
  | .addPeerCid sequenceNumber cid token retirePriorTo =>
    match m.addPeerCid sequenceNumber cid token retirePriorTo with
    | none => none
    | some (.ok (), m) => some (.done, m)
    | some (.error e, m) => some (.refused e, m)
  | .retireLocalCid sequenceNumber draw => some (.done, m.retireLocalCid sequenceNumber draw)
  | .rotateActivePeerCid => some (.rotated m.rotateActivePeerCid.1, m.rotateActivePeerCid.2)
  | .takePeerCidsToRetire => m.takePeerCidsToRetire.map fun x => (.retire x.1, x.2)
  | .takeUnadvertisedLocalCids =>
    some (.unadvertised m.takeUnadvertisedLocalCids.1, m.takeUnadvertisedLocalCids.2)
  | .generateConnectionIdUpdates parametersApplied connected limit draw =>
    (m.generateConnectionIdUpdates parametersApplied connected limit draw).map fun x =>
      (.frames x.1, x.2)
  | .setPeerCid cid => (m.setPeerCid cid).map fun m => (.done, m)
  | .setPrimaryLocalStatelessResetToken token =>
    (m.setPrimaryLocalStatelessResetToken token).map fun m => (.done, m)
  | .setActivePeerStatelessResetToken token =>
    (m.setActivePeerStatelessResetToken token).map fun m => (.done, m)

/-- A frame that passes the check of its handler and does not conflict with an earlier one. -/
def Regular (m : ConnectionIdManager) : CidEvent → Prop
  | .addPeerCid sequenceNumber cid token retirePriorTo => retirePriorTo ≤ sequenceNumber ∧
      ∀ e m', m.addPeerCid sequenceNumber cid token retirePriorTo ≠ some (.error e, m')
  | _ => True

end ConnectionIdManager

def CidEvent.retirePriorTo : CidEvent → Nat
  | .addPeerCid _ _ _ retirePriorTo => retirePriorTo
  | _ => 0

def largestRetirePriorTo (tr : List (CidEvent × CidResponse)) : Nat :=
  (tr.map fun x => x.1.retirePriorTo).foldl max 0

theorem largestRetirePriorTo_concat (tr : List (CidEvent × CidResponse)) (x : CidEvent × CidResponse) :
    largestRetirePriorTo (tr ++ [x]) = max (largestRetirePriorTo tr) x.1.retirePriorTo := by
  simp [largestRetirePriorTo]

namespace ConnectionIdManager

variable {m m' : ConnectionIdManager}

theorem Managed.step (h : Managed m) {e : CidEvent} (he : m.Regular e) :
    ∃ r m', m.step e = some (r, m') ∧ Managed m' ∧
      m'.maxPeerRetirePriorTo = max m.maxPeerRetirePriorTo e.retirePriorTo := by
  have hmax : m.maxPeerRetirePriorTo = max m.maxPeerRetirePriorTo 0 := (Nat.max_zero _).symm
  obtain ⟨hpeer, hlocal⟩ := h
  obtain ⟨active, hactive, hle⟩ := hpeer.active
  cases e with
  | issueNewCid draw =>
    exact ⟨_, _, rfl, ⟨hpeer.congr rfl rfl rfl, hlocal.issueNewCid draw⟩, hmax⟩
  | addPeerCid sequenceNumber cid token retirePriorTo =>
    obtain ⟨hretire, hok⟩ := he
    obtain ⟨result, m', hadd, hsame, hcids⟩ := addPeerCid_spec hpeer cid token hretire
    cases result with
    | error e => exact absurd hadd (hok e m')
    | ok _ =>
      refine ⟨.done, m', ?_, ⟨hcids rfl, hlocal.congr hsame.issued hsame.nextSequence⟩,
        hsame.maxPeerRetirePriorTo⟩
      simp only [ConnectionIdManager.step, hadd]
  | retireLocalCid sequenceNumber draw =>
    have hlocal' := hlocal.retireLocalCid sequenceNumber draw
    refine ⟨_, _, rfl, ⟨?_, hlocal'⟩, ?_⟩
    · apply hpeer.congr <;>
      · unfold ConnectionIdManager.retireLocalCid
        dsimp only
        split <;> rfl
    · refine Eq.trans ?_ hmax
      unfold ConnectionIdManager.retireLocalCid
      dsimp only
      split <;> rfl
  | rotateActivePeerCid =>
    have hrotated := hpeer.rotateActivePeerCid
    refine ⟨_, _, rfl, ⟨hrotated, hlocal.congr ?_ ?_⟩, Eq.trans ?_ hmax⟩ <;>
    · grind [ConnectionIdManager.rotateActivePeerCid]
  | takePeerCidsToRetire =>
    obtain ⟨retire, m', htake, hcids, hsame, -⟩ := takePeerCidsToRetire_spec hpeer
    refine ⟨.retire retire, m', ?_, ⟨hcids, hlocal.congr hsame.issued hsame.nextSequence⟩,
      hsame.maxPeerRetirePriorTo.trans hmax⟩
    simp only [ConnectionIdManager.step, htake, Option.map_some]
  | takeUnadvertisedLocalCids =>
    exact ⟨_, _, rfl, ⟨hpeer.congr rfl rfl rfl, hlocal.takeUnadvertisedLocalCids⟩, hmax⟩
  | generateConnectionIdUpdates applied connected limit draw =>
    obtain ⟨frames, m', hgenerate, hmanaged, hsame, -⟩ :=
      generateConnectionIdUpdates_spec ⟨hpeer, hlocal⟩ applied connected limit draw
    refine ⟨.frames frames, m', ?_, hmanaged, hsame.trans hmax⟩
    simp only [ConnectionIdManager.step, hgenerate, Option.map_some]
  | setPeerCid cid =>
    have hset := hpeer.setActive { active with cid := cid } hactive rfl rfl
    refine ⟨.done, _, ?_, ⟨hset, hlocal.congr rfl rfl⟩, hmax⟩
    simp only [ConnectionIdManager.step, setPeerCid, hactive, Option.map_some]
  | setPrimaryLocalStatelessResetToken token =>
    cases hissued : m.issued with
    | nil => exact absurd hissued hlocal.nonempty
    | cons first rest =>
      have hfirst : m.issued[0]? = some first := by rw [hissued]; rfl
      have hset := hlocal.setFirst { first with statelessResetToken := some token } hfirst rfl rfl
      refine ⟨.done, _, ?_, .mk (hpeer.congr ?_ ?_ ?_) hset, hmax⟩
      · grind [ConnectionIdManager.step, setPrimaryLocalStatelessResetToken]
      all_goals rfl
  | setActivePeerStatelessResetToken token =>
    have hset := hpeer.setActive { active with statelessResetToken := some token } hactive rfl rfl
    refine ⟨.done, _, ?_, ⟨hset, hlocal.congr rfl rfl⟩, hmax⟩
    simp only [ConnectionIdManager.step, setActivePeerStatelessResetToken, hactive,
      Option.map_some]

theorem Managed.new (initialLocalCid initialPeerCid : ConnectionId) :
    Managed (ConnectionIdManager.new initialLocalCid initialPeerCid) where
  peerCids := by
    refine ⟨⟨List.nodup_singleton _, fun entry hentry => ?_⟩, _, rfl, Nat.zero_le _⟩
    rw [List.mem_singleton.mp hentry]
    exact ⟨fun h => (by cases h), fun h => absurd h (Nat.not_lt_zero _)⟩
  localCids := by
    refine ⟨⟨List.nodup_singleton _, fun entry hentry => ?_, fun entry hentry => ?_⟩,
      List.cons_ne_nil _ _⟩
    · rw [List.mem_singleton.mp hentry]
      exact Nat.zero_lt_one
    · rw [List.mem_singleton.mp hentry]

end ConnectionIdManager

/-! ## Whole runs -/

/-- The identifiers of both sides in a state, with the largest value that the peer has asked us
to retire up to. -/
structure CidInvariant (tr : List (CidEvent × CidResponse)) (m : ConnectionIdManager) : Prop where
  peer_distinct : (m.peer.map (·.sequenceNumber)).Nodup
  active : ∃ entry, m.peer[m.activePeerCidIndex]? = some entry ∧
    largestRetirePriorTo tr ≤ entry.sequenceNumber
  retired : ∀ entry ∈ m.peer, entry.sequenceNumber < largestRetirePriorTo tr → entry.retired = true
  reported : ∃ retire m', m.takePeerCidsToRetire = some (retire, m') ∧
    ∀ n, n ∈ retire ↔ n ∈ m.peer.map (·.sequenceNumber) ∧ n < largestRetirePriorTo tr
  issued_nonempty : m.issued ≠ []
  issued_distinct : (m.issued.map (·.sequenceNumber)).Nodup
  issued_below : ∀ entry ∈ m.issued, entry.sequenceNumber < m.nextSequence
  generated : ∀ parametersApplied connected limit draw, ∃ frames m',
    m.generateConnectionIdUpdates parametersApplied connected limit draw = some (frames, m') ∧
      (∀ sequenceNumber retirePriorTo cid token,
        .newConnectionId sequenceNumber retirePriorTo cid token ∈ frames →
          retirePriorTo ≤ sequenceNumber) ∧
      ∀ n, .retireConnectionId n ∈ frames → n < largestRetirePriorTo tr
  proceeds : ∀ e, m.Regular e → ∃ r m', m.step e = some (r, m')

/-- In every run in which no NEW_CONNECTION_ID frame was refused, the identifiers of both sides
are in order, and no operation panics. -/
theorem connection_ids_managed (initialLocalCid initialPeerCid : ConnectionId)
    {tr : List (CidEvent × CidResponse)} {m : ConnectionIdManager}
    (hrun : Run ConnectionIdManager.step ConnectionIdManager.Regular
      (ConnectionIdManager.new initialLocalCid initialPeerCid) tr m) : CidInvariant tr m := by
  have hinv : m.Managed ∧ m.maxPeerRetirePriorTo = largestRetirePriorTo tr := by
    apply hrun.invariant
      (I := fun tr m => m.Managed ∧ m.maxPeerRetirePriorTo = largestRetirePriorTo tr)
    · exact ⟨.new initialLocalCid initialPeerCid, rfl⟩
    · intro tr m e r m' ⟨hmanaged, hlargest⟩ hregular hstep
      obtain ⟨r', m'', hstep', hmanaged', hmax⟩ := hmanaged.step hregular
      cases hstep.symm.trans hstep'
      rw [largestRetirePriorTo_concat, ← hlargest]
      exact ⟨hmanaged', hmax⟩
  obtain ⟨hmanaged, hlargest⟩ := hinv
  have hpeer := hmanaged.peerCids
  refine ⟨hpeer.nodup, hlargest ▸ hpeer.active, fun entry hentry hlt => ?_, ?_,
    hmanaged.localCids.nonempty, hmanaged.localCids.nodup, hmanaged.localCids.below,
    fun applied connected limit draw => ?_, fun e he => ?_⟩
  · exact (hpeer.retired_iff entry hentry).mpr (hlargest ▸ hlt)
  · obtain ⟨retire, m', htake, -, -, hretire⟩ :=
      ConnectionIdManager.takePeerCidsToRetire_spec hpeer
    refine ⟨retire, m', htake, fun n => ?_⟩
    rw [hretire, ← hlargest]
    simp only [List.mem_map, List.mem_filter, decide_eq_true_eq]
    constructor
    · rintro ⟨entry, ⟨hentry, hlt⟩, rfl⟩
      exact ⟨⟨entry, hentry, rfl⟩, hlt⟩
    · rintro ⟨⟨entry, hentry, rfl⟩, hlt⟩
      exact ⟨entry, ⟨hentry, hlt⟩, rfl⟩
  · obtain ⟨frames, m', hgenerate, -, -, hproper⟩ :=
      ConnectionIdManager.generateConnectionIdUpdates_spec hmanaged applied connected limit draw
    exact ⟨frames, m', hgenerate, hproper.newConnectionId, hlargest ▸ hproper.retireConnectionId⟩
  · obtain ⟨r, m', hstep, -⟩ := hmanaged.step he
    exact ⟨r, m', hstep⟩

/-- The frames [5, retire 5] and [3, retire 3] in this order: 3 arrives retired. -/
theorem reordered_cids_managed : ∃ tr m, m.peer.map (·.sequenceNumber) = [0, 5, 3] ∧
    m.activePeerCidIndex = 1 ∧ CidInvariant tr m := by
  have hnil : Run ConnectionIdManager.step ConnectionIdManager.Regular
    (ConnectionIdManager.new (.fromSlice [1]) (.fromSlice [2])) [] _ := .nil
  have hfive := hnil.push (.addPeerCid 5 (.fromSlice [3]) [7] 5) rfl
    ⟨Nat.le_refl _, fun _ _ h => by cases h⟩
  have hthree := hfive.push (.addPeerCid 3 (.fromSlice [4]) [8] 3) rfl
    ⟨Nat.le_refl _, fun _ _ h => by cases h⟩
  exact ⟨_, _, rfl, rfl, connection_ids_managed (.fromSlice [1]) (.fromSlice [2]) hthree⟩

end Starfish.Quic
