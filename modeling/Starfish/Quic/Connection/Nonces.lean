import Starfish.Lib.Run
import Starfish.Quic.Connection.BuildPacket

/-!
# Nonces

The nonce of a sealed packet is its packet number, so a key must not seal two packets
under one number. Numbers only grow, except that a Retry starts the Initial space
again; uniqueness then depends on the Retry bringing a new Initial key.
-/

namespace Starfish.Quic

universe u

def KeySource.space : KeySource → PacketNumberSpace
  | .initial _ => .initial
  | .handshake _ => .handshake
  | .zeroRtt => .applicationData
  | .oneRtt _ _ => .applicationData

inductive KeyEvent (α : Type u)
  | build (ctx : SendContext α) (space : PacketNumberSpace) (frames : List Frame) (payload : Bytes)
      (addr : α) (trackRetransmission : Bool) (pendingDatagramBytes : Nat)
  | installKeys (change : KeyChange)
  | refreshZeroRttKeys (tlsHasKeys : Bool)
  | earlyDataFinalized
  | handshakeDone
  | deferredKeyDiscards
  | peerParametersRemembered
  | initiateKeyUpdate
  | otherKeyPhase (pn : Nat) (recvKeyPhase : Bool) (header ciphertext : Bytes)
  | retry (data : Bytes) (header : LongHeader)

namespace KeyState

variable {α : Type u} (P : PacketProtection) (R : RetryIntegrity)

def step (s : KeyState) : KeyEvent α → Option (List (KeyId × Nat) × KeyState)
  | .build ctx space frames payload addr trackRetransmission pendingDatagramBytes =>
    let b := s.buildPacketToAddr P ctx space frames payload addr trackRetransmission
      pendingDatagramBytes
    some (b.sealed, b.state)
  | .installKeys change => some ([], s.installKeys change)
  | .refreshZeroRttKeys tlsHasKeys => some ([], s.refreshZeroRttKeys tlsHasKeys)
  | .earlyDataFinalized => some ([], s.discardZeroRtt)
  | .handshakeDone => some ([], s.discardSpaceKeys .handshake)
  | .deferredKeyDiscards => some ([], s.processDeferredKeyDiscards)
  | .peerParametersRemembered => some ([], { s with rememberedPeerTransportParameters := true })
  | .initiateKeyUpdate => some ([], s.initiateKeyUpdate.2)
  | .otherKeyPhase pn recvKeyPhase header ciphertext =>
    some ([], (s.tryDecryptWithNextKeys P pn recvKeyPhase header ciphertext).2)
  | .retry data header => some ([], (s.processRetry R data header).2)

end KeyState

/-! ## Operations that seal nothing -/

structure PacketKeys.Sourced (keys : PacketKeys) : Prop where
  handshake : ∀ k, keys.handshake = some k → k.localKey.source.space = .handshake
  oneRtt : ∀ k, keys.oneRtt = some k → k.localKey.source.space = .applicationData
  zeroRtt : ∀ k, keys.zeroRttLocal = some k → k.source.space = .applicationData

structure KeepsNumbers (s s' : KeyState) : Prop where
  side : s'.side = s.side
  originalDcid : s'.originalDcid = s.originalDcid
  nextPn : s'.nextPn = s.nextPn
  retryReceived : s'.retryReceived = s.retryReceived
  initial : s'.keys.initial = s.keys.initial ∨ s'.keys.initial = none
  sourced : s.keys.Sourced → s'.keys.Sourced

namespace PacketKeys

variable {keys : PacketKeys}

theorem Sourced.discardZeroRtt (h : keys.Sourced) : keys.discardZeroRtt.Sourced :=
  ⟨h.handshake, h.oneRtt, fun _ hk => (nomatch hk)⟩

theorem Sourced.setZeroRtt (h : keys.Sourced) (side : Side) : (keys.setZeroRtt side).Sourced := by
  cases side with
  | client =>
    refine ⟨h.handshake, h.oneRtt, fun k hk => ?_⟩
    cases hk
    rfl
  | server => exact ⟨h.handshake, h.oneRtt, fun _ hk => (nomatch hk)⟩

theorem Sourced.discard (h : keys.Sourced) (space : PacketNumberSpace) :
    (keys.discard space).Sourced := by
  cases space with
  | initial => exact ⟨h.handshake, h.oneRtt, h.zeroRtt⟩
  | handshake => exact ⟨fun _ hk => (nomatch hk), h.oneRtt, h.zeroRtt⟩
  | applicationData => exact ⟨h.handshake, fun _ hk => (nomatch hk), h.zeroRtt⟩

theorem discard_initial (space : PacketNumberSpace) :
    (keys.discard space).initial = keys.initial ∨ (keys.discard space).initial = none := by
  cases space with
  | initial => exact Or.inr rfl
  | handshake | applicationData => exact Or.inl rfl

theorem discardAll (spaces : List PacketNumberSpace) (keys : PacketKeys) :
    (keys.Sourced → (spaces.foldl PacketKeys.discard keys).Sourced) ∧
      ((spaces.foldl PacketKeys.discard keys).initial = keys.initial ∨
        (spaces.foldl PacketKeys.discard keys).initial = none) := by
  induction spaces generalizing keys with
  | nil => exact ⟨id, Or.inl rfl⟩
  | cons space rest ih =>
    obtain ⟨hsourced, hinitial⟩ := ih (keys.discard space)
    refine ⟨fun h => hsourced (h.discard space), ?_⟩
    grind [discard_initial]

end PacketKeys

namespace KeepsNumbers

variable {s s' s'' : KeyState}

theorem refl (s : KeyState) : KeepsNumbers s s := ⟨rfl, rfl, rfl, rfl, Or.inl rfl, id⟩

theorem of_keys (hkeys : s'.keys = s.keys) (hside : s'.side = s.side)
    (hdcid : s'.originalDcid = s.originalDcid) (hpn : s'.nextPn = s.nextPn)
    (hretry : s'.retryReceived = s.retryReceived) : KeepsNumbers s s' :=
  ⟨hside, hdcid, hpn, hretry, Or.inl (by rw [hkeys]), fun h => hkeys ▸ h⟩

theorem trans (h : KeepsNumbers s s') (h' : KeepsNumbers s' s'') : KeepsNumbers s s'' where
  side := h'.side.trans h.side
  originalDcid := h'.originalDcid.trans h.originalDcid
  nextPn := h'.nextPn.trans h.nextPn
  retryReceived := h'.retryReceived.trans h.retryReceived
  initial := by
    grind [cases KeepsNumbers]
  sourced := fun hs => h'.sourced (h.sourced hs)

end KeepsNumbers

namespace KeyState

variable (s : KeyState)

theorem installKeys_keepsNumbers (change : KeyChange) : KeepsNumbers s (s.installKeys change) := by
  cases change with
  | handshake install =>
    refine ⟨rfl, rfl, rfl, rfl, Or.inl rfl, fun h => ⟨fun k hk => ?_, h.oneRtt, h.zeroRtt⟩⟩
    cases hk
    rfl
  | oneRtt install =>
    refine ⟨rfl, rfl, rfl, rfl, Or.inl rfl, fun h => ⟨h.handshake, fun k hk => ?_, h.zeroRtt⟩⟩
    cases hk
    rfl

theorem refreshZeroRttKeys_keepsNumbers (tlsHasKeys : Bool) :
    KeepsNumbers s (s.refreshZeroRttKeys tlsHasKeys) := by
  unfold refreshZeroRttKeys
  split
  · exact ⟨rfl, rfl, rfl, rfl, Or.inl rfl, fun h => h.discardZeroRtt⟩
  · split
    · refine ⟨rfl, rfl, rfl, rfl, Or.inl ?_, fun h => h.setZeroRtt s.side⟩
      cases s.side <;> rfl
    · exact .refl s

theorem setLocalKey_keepsNumbers {key : KeyId} (hkey : key.source.space = .applicationData) :
    KeepsNumbers s (s.setLocalKey key) := by
  refine ⟨rfl, rfl, rfl, rfl, Or.inl rfl, fun h => ⟨h.handshake, fun k hk => ?_, h.zeroRtt⟩⟩
  obtain ⟨old, hold, rfl⟩ := Option.map_eq_some_iff.mp hk
  exact hkey

theorem setRemoteKey_keepsNumbers (key : KeyId) : KeepsNumbers s (s.setRemoteKey key) := by
  refine ⟨rfl, rfl, rfl, rfl, Or.inl rfl, fun h => ⟨h.handshake, fun k hk => ?_, h.zeroRtt⟩⟩
  obtain ⟨old, hold, rfl⟩ := Option.map_eq_some_iff.mp hk
  exact h.oneRtt old hold

theorem setPhases_keepsNumbers (localPhase remotePhase : Bool)
    (pending : Option PendingRemoteKeyUpdate) (pn : Nat) :
    KeepsNumbers s (s.setPhases localPhase remotePhase pending pn) :=
  .of_keys rfl rfl rfl rfl rfl

theorem nextPacketKeys_keepsNumbers (secrets : Secrets) :
    KeepsNumbers s (s.nextPacketKeys secrets).2 :=
  .of_keys rfl rfl rfl rfl rfl

theorem nextPacketKeys_space (secrets : Secrets) :
    (s.nextPacketKeys secrets).1.1.source.space = .applicationData := rfl

theorem initiateKeyUpdate_keepsNumbers : KeepsNumbers s s.initiateKeyUpdate.2 := by
  unfold initiateKeyUpdate
  split
  · exact .refl s
  · next secrets hsecrets =>
    split
    · exact .refl s
    · have hnext := s.nextPacketKeys_keepsNumbers secrets
      have hlocal := setLocalKey_keepsNumbers (s.nextPacketKeys secrets).2
        (s.nextPacketKeys_space secrets)
      exact (hnext.trans hlocal).trans (setPhases_keepsNumbers _ _ _ _ _)

theorem completeKeyUpdate_keepsNumbers (pending : PendingRemoteKeyUpdate) (pn : Nat) :
    KeepsNumbers s (s.completeKeyUpdate pending pn) :=
  (s.setRemoteKey_keepsNumbers pending.remote).trans (setPhases_keepsNumbers _ _ _ _ _)

theorem followKeyUpdate_keepsNumbers {next : KeyId × KeyId} (recvKeyPhase : Bool) (pn : Nat)
    (hnext : next.1.source.space = .applicationData) :
    KeepsNumbers s (s.followKeyUpdate next recvKeyPhase pn) :=
  ((s.setLocalKey_keepsNumbers hnext).trans (setRemoteKey_keepsNumbers _ next.2)).trans
    (setPhases_keepsNumbers _ _ _ _ _)

theorem tryDecryptWithNextKeys_keepsNumbers (P : PacketProtection) (pn : Nat) (recvKeyPhase : Bool)
    (header ciphertext : Bytes) :
    KeepsNumbers s (s.tryDecryptWithNextKeys P pn recvKeyPhase header ciphertext).2 := by
  unfold tryDecryptWithNextKeys
  split
  · exact .refl s
  · split
    · split
      · exact .refl s
      · exact s.completeKeyUpdate_keepsNumbers _ pn
    · split
      · exact .refl s
      · next secrets hsecrets =>
        have hnext := s.nextPacketKeys_keepsNumbers secrets
        have hfollow := followKeyUpdate_keepsNumbers (s.nextPacketKeys secrets).2 recvKeyPhase pn
          (s.nextPacketKeys_space secrets)
        dsimp only
        split
        · exact hnext
        · exact hnext.trans hfollow

theorem processDeferredKeyDiscards_keepsNumbers : KeepsNumbers s s.processDeferredKeyDiscards := by
  obtain ⟨hsourced, hinitial⟩ := PacketKeys.discardAll s.deferredKeyDiscards s.keys
  exact ⟨rfl, rfl, rfl, rfl, hinitial, hsourced⟩

end KeyState

/-! ## Runs -/

def sealedPairs {α : Type u} (tr : List (KeyEvent α × List (KeyId × Nat))) : List (KeyId × Nat) :=
  tr.flatMap Prod.snd

@[simp] theorem sealedPairs_append {α : Type u} (tr : List (KeyEvent α × List (KeyId × Nat)))
    (e : KeyEvent α) (pairs : List (KeyId × Nat)) :
    sealedPairs (tr ++ [(e, pairs)]) = sealedPairs tr ++ pairs := by
  simp [sealedPairs]

/-- What is known of the pairs that were used to seal, `dcid` being the connection ID of the
current Initial keys and `dcid₀` the one of the first. -/
structure NonceLedger (dcid₀ dcid : Bytes) (pairs : List (KeyId × Nat)) (s : KeyState) : Prop where
  nodup : pairs.Nodup
  sourced : s.keys.Sourced
  initial : ∀ k, s.keys.initial = some k → k.localKey = ⟨.initial dcid, s.side⟩
  used : ∀ pn, (⟨.initial dcid, s.side⟩, pn) ∈ pairs ↔ pn < s.nextPn .initial
  below : ∀ p ∈ pairs, p.1.source.space ≠ .initial → p.2 < s.nextPn p.1.source.space
  first : s.retryReceived = false → dcid = dcid₀ ∧
    ∀ p ∈ pairs, p.1.source.space = .initial → p.1 = ⟨.initial dcid, s.side⟩
  original : s.side = .client → dcid₀ = s.originalDcid.bytes

namespace NonceLedger

variable {dcid₀ dcid : Bytes} {pairs : List (KeyId × Nat)} {s s' : KeyState}

variable (h : NonceLedger dcid₀ dcid pairs s)

include h in
theorem of_keepsNumbers (hs : KeepsNumbers s s') : NonceLedger dcid₀ dcid pairs s' where
  nodup := h.nodup
  sourced := hs.sourced h.sourced
  initial := fun k hk => by
    grind [cases KeepsNumbers, cases NonceLedger]
  used := fun pn => by
    rw [hs.side, hs.nextPn]
    exact h.used pn
  below := by
    rw [hs.nextPn]
    exact h.below
  first := by
    rw [hs.retryReceived, hs.side]
    exact h.first
  original := by
    rw [hs.side, hs.originalDcid]
    exact h.original

variable {space : PacketNumberSpace}

include h in
theorem space_of_sealKeys {appKind : Option ApplicationPacketKind} {keys : KeyId × KeyId}
    (happ : appKind.isSome ↔ space = .applicationData)
    (hkeys : s.sealKeys space appKind = some keys) :
    keys.1.source.space = space ∧ (space = .initial → keys.1 = ⟨.initial dcid, s.side⟩) := by
  cases appKind with
  | none =>
    obtain ⟨k, hk, rfl⟩ := Option.map_eq_some_iff.mp hkeys
    cases space with
    | initial =>
      have hlocal := h.initial k hk
      exact ⟨by rw [hlocal]; rfl, fun _ => hlocal⟩
    | handshake => exact ⟨h.sourced.handshake k hk, fun hne => (nomatch hne)⟩
    | applicationData => exact ⟨h.sourced.oneRtt k hk, fun hne => (nomatch hne)⟩
  | some kind =>
    obtain rfl := happ.mp rfl
    refine ⟨?_, fun hne => (nomatch hne)⟩
    cases kind with
    | zeroRtt =>
      obtain ⟨k, hk, rfl⟩ := Option.map_eq_some_iff.mp hkeys
      exact h.sourced.zeroRtt k hk
    | oneRtt =>
      obtain ⟨k, hk, rfl⟩ := Option.map_eq_some_iff.mp hkeys
      exact h.sourced.oneRtt k hk

include h in
theorem fresh {key : KeyId} (hspace : key.source.space = space)
    (hinitial : space = .initial → key = ⟨.initial dcid, s.side⟩) :
    (key, s.nextPn space) ∉ pairs := by
  intro hmem
  by_cases hcase : space = .initial
  · rw [hinitial hcase, h.used, hcase] at hmem
    exact Nat.lt_irrefl _ hmem
  · have hlt := h.below _ hmem (by rw [hspace]; exact hcase)
    rw [hspace] at hlt
    exact Nat.lt_irrefl _ hlt

include h in
theorem afterSeal {key : KeyId}
    (appKind : Option ApplicationPacketKind) (hspace : key.source.space = space)
    (hinitial : space = .initial → key = ⟨.initial dcid, s.side⟩) :
    NonceLedger dcid₀ dcid (pairs ++ [(key, s.nextPn space)]) (s.advance space appKind) where
  nodup := by
    apply List.Nodup.append h.nodup (List.nodup_singleton _)
    intro p hp hnew
    rw [List.mem_singleton.mp hnew] at hp
    exact h.fresh hspace hinitial hp
  sourced := h.sourced
  initial := h.initial
  used := fun pn => by
    rw [List.mem_append, List.mem_singleton]
    show _ ↔ pn < if PacketNumberSpace.initial = space then s.nextPn space + 1 else s.nextPn .initial
    by_cases hcase : space = .initial
    · subst hcase
      rw [show (s.advance .initial appKind).side = s.side from rfl, h.used]
      grind
    · rw [if_neg (Ne.symm hcase), ← h.used pn]
      constructor
      · intro hor
        rcases hor with hmem | heq
        · exact hmem
        · cases heq
          exact absurd hspace.symm hcase
      · exact Or.inl
  below := fun p hp hne => by
    show p.2 < if p.1.source.space = space then s.nextPn space + 1 else s.nextPn _
    rcases List.mem_append.mp hp with hold | hnew
    · grind [cases NonceLedger]
    · grind
  first := fun hretry => by
    obtain ⟨hdcid, hall⟩ := h.first hretry
    refine ⟨hdcid, fun p hp hcase => ?_⟩
    rcases List.mem_append.mp hp with hold | hnew
    · exact hall p hold hcase
    · rw [List.mem_singleton.mp hnew] at hcase ⊢
      exact hinitial (hspace.symm.trans hcase)
  original := h.original

include h in
theorem afterRetry (token : Bytes) {scid : ConnectionId}
    (hclient : s.side = .client) (hretry : s.retryReceived = false)
    (hnew : scid.bytes ≠ s.originalDcid.bytes ∨ s.nextPn .initial = 0) :
    NonceLedger dcid₀ scid.bytes pairs (s.restartInitial token scid) where
  nodup := h.nodup
  sourced := ⟨h.sourced.handshake, h.sourced.oneRtt, h.sourced.zeroRtt⟩
  initial := fun k hk => by
    cases hk
    show (⟨_, .client⟩ : KeyId) = ⟨_, s.side⟩
    rw [hclient]
  used := fun pn => by
    obtain ⟨hdcid, hall⟩ := h.first hretry
    refine iff_of_false (fun hmem => ?_) (Nat.not_lt_zero pn)
    -- All Initial packets so far were sealed with the key of the original connection ID.
    have hkey := hall _ hmem rfl
    have hsame : scid.bytes = dcid := by
      cases hkey
      rfl
    rcases hnew with hne | hzero
    · exact hne (hsame.trans (hdcid.trans (h.original hclient)))
    · have hlt := (h.used pn).mp (hsame ▸ hmem)
      omega
  below := fun p hp hne => by
    show p.2 < if p.1.source.space = .initial then 0 else s.nextPn _
    rw [if_neg hne]
    exact h.below p hp hne
  first := fun hfalse => (nomatch hfalse)
  original := h.original

end NonceLedger

namespace KeyState

variable {α : Type u}

/-- A Retry that is accepted brings a new Initial key, or nothing has been sealed before it. -/
def RetryRenewsKey (R : RetryIntegrity) (s : KeyState) : KeyEvent α → Prop
  | .retry data header => ∀ token, s.checkRetry R data header = .ok (some token) →
      header.scid.bytes ≠ s.originalDcid.bytes ∨ s.nextPn .initial = 0
  | _ => True

/-- A connection as it is created on either side. -/
def IsNew (s : KeyState) : Prop :=
  (∃ remoteCid, s = newClient remoteCid) ∨
    ∃ initialDcid originalDcid remoteCid, s = newServer initialDcid originalDcid remoteCid

theorem newLedger {s : KeyState} {dcid : Bytes}
    (hkeys : s.keys = { initial := some (.derive (.initial dcid) s.side) })
    (hpn : ∀ space, s.nextPn space = 0)
    (horiginal : s.side = .client → dcid = s.originalDcid.bytes) :
    NonceLedger dcid dcid [] s where
  nodup := List.nodup_nil
  sourced := by
    rw [hkeys]
    exact ⟨fun _ hk => (nomatch hk), fun _ hk => (nomatch hk), fun _ hk => (nomatch hk)⟩
  initial := fun k hk => by
    rw [hkeys] at hk
    cases hk
    rfl
  used := fun pn => by
    grind
  below := fun _ hp => (nomatch hp)
  first := fun _ => ⟨rfl, fun _ hp => (nomatch hp)⟩
  original := horiginal

theorem IsNew.ledger {s : KeyState} (h : s.IsNew) : ∃ dcid₀, NonceLedger dcid₀ dcid₀ [] s := by
  rcases h with ⟨remoteCid, rfl⟩ | ⟨initialDcid, originalDcid, remoteCid, rfl⟩
  · exact ⟨remoteCid.bytes, newLedger rfl (fun _ => rfl) fun _ => rfl⟩
  · exact ⟨initialDcid, newLedger rfl (fun _ => rfl) fun hside => (nomatch hside)⟩

theorem checkRetry_client {R : RetryIntegrity} {s : KeyState} {data token : Bytes}
    {header : LongHeader} (h : s.checkRetry R data header = .ok (some token)) :
    s.side = .client ∧ s.retryReceived = false := by
  grind [checkRetry]

theorem step_ledger {P : PacketProtection} {R : RetryIntegrity} (hP : P.Documented)
    {s s' : KeyState} {e : KeyEvent α} {used pairs : List (KeyId × Nat)} {dcid₀ dcid : Bytes}
    (h : NonceLedger dcid₀ dcid pairs s) (hok : RetryRenewsKey R s e)
    (hstep : s.step P R e = some (used, s')) :
    ∃ dcid', NonceLedger dcid₀ dcid' (pairs ++ used) s' := by
  have kept : ∀ {t : KeyState}, KeepsNumbers s t →
      ∃ dcid', NonceLedger dcid₀ dcid' (pairs ++ []) t := by
    intro t ht
    rw [List.append_nil]
    exact ⟨dcid, h.of_keepsNumbers ht⟩
  cases e with
  | build ctx space frames payload addr trackRetransmission pendingDatagramBytes =>
    cases hstep
    rcases buildPacketToAddr_cases hP ctx s space frames payload addr trackRetransmission
      pendingDatagramBytes with
      ⟨hsealed, hstate⟩ | ⟨appKind, keys, happ, hkeys, hsealed, hstate⟩
    · rw [hsealed, hstate]
      exact kept (.refl s)
    · obtain ⟨hspace, hinitial⟩ := h.space_of_sealKeys happ hkeys
      rw [hsealed, hstate]
      exact ⟨dcid, h.afterSeal appKind hspace hinitial⟩
  | installKeys change =>
    cases hstep
    exact kept (s.installKeys_keepsNumbers change)
  | refreshZeroRttKeys tlsHasKeys =>
    cases hstep
    exact kept (s.refreshZeroRttKeys_keepsNumbers tlsHasKeys)
  | earlyDataFinalized =>
    cases hstep
    exact kept ⟨rfl, rfl, rfl, rfl, Or.inl rfl, fun hs => hs.discardZeroRtt⟩
  | handshakeDone =>
    cases hstep
    exact kept ⟨rfl, rfl, rfl, rfl, Or.inl rfl, fun hs => hs.discard .handshake⟩
  | deferredKeyDiscards =>
    cases hstep
    exact kept s.processDeferredKeyDiscards_keepsNumbers
  | peerParametersRemembered =>
    cases hstep
    exact kept (.of_keys rfl rfl rfl rfl rfl)
  | initiateKeyUpdate =>
    cases hstep
    exact kept s.initiateKeyUpdate_keepsNumbers
  | otherKeyPhase pn recvKeyPhase header ciphertext =>
    cases hstep
    exact kept (s.tryDecryptWithNextKeys_keepsNumbers P pn recvKeyPhase header ciphertext)
  | retry data header =>
    cases hstep
    unfold processRetry
    split
    · exact kept (.refl s)
    · exact kept (.refl s)
    · next token haccepted =>
      obtain ⟨hclient, hretry⟩ := checkRetry_client haccepted
      rw [List.append_nil]
      exact ⟨header.scid.bytes, h.afterRetry token hclient hretry (hok token haccepted)⟩

/-- No key seals two packets under one number in a run in which every accepted Retry brings
a new Initial key or comes first; and after an accepted Retry that does neither, the first
Initial packet that is sealed repeats a key and a number. -/
theorem nonces_unique_iff (P : PacketProtection) (R : RetryIntegrity) (hP : P.Documented)
    {s₀ s : KeyState} {tr : List (KeyEvent α × List (KeyId × Nat))} (hnew : s₀.IsNew)
    (hrun : Run (step P R) (RetryRenewsKey R) s₀ tr s) :
    (sealedPairs tr).Nodup ∧
      ∀ data header, ¬ RetryRenewsKey R s (KeyEvent.retry (α := α) data header) →
        ∀ (ctx : SendContext α) frames payload addr trackRetransmission pendingDatagramBytes,
          ∀ pair ∈ ((s.processRetry R data header).2.buildPacketToAddr P ctx .initial frames
            payload addr trackRetransmission pendingDatagramBytes).sealed,
            pair ∈ sealedPairs tr := by
  obtain ⟨dcid₀, hinit⟩ := hnew.ledger
  obtain ⟨dcid, hledger⟩ : ∃ dcid, NonceLedger dcid₀ dcid (sealedPairs tr) s := by
    apply hrun.invariant (I := fun tr s => ∃ dcid, NonceLedger dcid₀ dcid (sealedPairs tr) s)
      ⟨dcid₀, hinit⟩
    intro tr t e used u hinv hok hstep
    obtain ⟨dcid, hledger⟩ := hinv
    rw [sealedPairs_append]
    exact step_ledger hP hledger hok hstep
  refine ⟨hledger.nodup, ?_⟩
  intro data header hstale ctx frames payload addr trackRetransmission pendingDatagramBytes pair hpair
  simp only [RetryRenewsKey, not_forall, not_or, Decidable.not_not] at hstale
  obtain ⟨token, haccepted, hsame, hsealed⟩ := hstale
  obtain ⟨hclient, hretry⟩ := checkRetry_client haccepted
  have hdcid : dcid = header.scid.bytes := by
    rw [hsame, (hledger.first hretry).1, hledger.original hclient]
  rw [processRetry, haccepted] at hpair
  rcases buildPacketToAddr_cases hP ctx (s.restartInitial token header.scid) .initial frames payload
    addr trackRetransmission pendingDatagramBytes with
    ⟨hnone, -⟩ | ⟨appKind, keys, happ, hkeys, hused, -⟩
  · rw [hnone] at hpair
    cases hpair
  · rw [hused, List.mem_singleton] at hpair
    have hkind : appKind = none := by simpa using happ
    subst hkind
    cases hkeys
    -- The first number of the restarted space, under the key of the original connection ID.
    have hpair' : pair = (⟨.initial dcid, s.side⟩, 0) := by
      rw [hpair, hdcid, hclient]
      rfl
    rw [hpair', hledger.used]
    exact Nat.pos_of_ne_zero hsealed

/-! ## A client that receives a Retry -/

/-- Protection that changes nothing and appends an empty tag. -/
def plainProtection : PacketProtection where
  tagLen _ := 16
  sampleLen _ := 16
  encryptInPlace _ _ _ payload := some (payload, List.replicate 16 0)
  decryptInPlace _ _ _ payload := some (payload.take (payload.length - 16))
  maskHeader _ _ first pnBytes := some (first, pnBytes)
  unmaskHeader _ _ first pnBytes := some (first, pnBytes)

theorem plainProtection_documented : plainProtection.Documented where
  sampleLen_le _ := by
    show 16 + 4 ≤ u64Max
    decide
  encrypt_length h := by
    cases h
    exact ⟨rfl, rfl⟩
  mask_isSome _ _ _ _ := rfl
  mask_length h := by
    cases h
    rfl

def zeroTag : RetryIntegrity := ⟨fun _ _ => .ok (List.replicate 16 0)⟩

def clientCid : ConnectionId := .fromSlice [1, 2, 3, 4, 5, 6, 7, 8]

def serverCid : ConnectionId := .fromSlice [8, 7, 6, 5, 4, 3, 2, 1]

def retryPacket (scid : ConnectionId) : Bytes :=
  encodeLongHeader .retry clientCid scid 1 ++ [7] ++ List.replicate 16 0

def retryHeader (scid : ConnectionId) : LongHeader := ⟨.retry, 0xf0, 1, clientCid, scid, 23⟩

/-- No gate refuses a packet. -/
def openContext : SendContext Unit where
  canSend _ := true
  largestAcked _ := none
  peerCidForAddr _ := serverCid
  primaryLocalCid := clientCid
  canSendToAddr _ _ := true

def initialPing : KeyEvent Unit := .build openContext .initial [.ping] [1] () true 0

/-- An Initial packet, a Retry from a new connection ID and another Initial packet: the second
packet has number 0 again, under another key. -/
theorem nonces_unique_after_retry : ∃ (tr : List (KeyEvent Unit × List (KeyId × Nat))) (s : KeyState),
    Run (step plainProtection zeroTag) (RetryRenewsKey zeroTag) (newClient serverCid) tr s ∧
    (sealedPairs tr).map Prod.snd = [0, 0] ∧ (sealedPairs tr).Nodup := by
  have hinit : Run (step (α := Unit) plainProtection zeroTag) (RetryRenewsKey zeroTag)
    (newClient serverCid) [] _ := .nil
  have hrun := ((hinit.push initialPing rfl trivial).push
    (KeyEvent.retry (retryPacket clientCid) (retryHeader clientCid)) rfl
    (fun _ _ => Or.inl (by decide +kernel))).push initialPing rfl trivial
  refine ⟨_, _, hrun, by decide +kernel, ?_⟩
  exact (nonces_unique_iff plainProtection zeroTag plainProtection_documented
    (Or.inl ⟨serverCid, rfl⟩) hrun).1

/-- A Retry whose source connection ID is the original destination connection ID is accepted;
the Initial packets before and after it are sealed with one key under one number. -/
theorem retry_with_original_dcid_reuses_nonce :
    ∃ (tr : List (KeyEvent Unit × List (KeyId × Nat))) (s : KeyState),
    Run (step plainProtection zeroTag) (fun _ _ => True) (newClient serverCid) tr s ∧
    tr.map Prod.fst = [initialPing, .retry (retryPacket serverCid) (retryHeader serverCid),
      initialPing] ∧
    parseHeader (retryPacket serverCid) 8 = .ok (.long (retryHeader serverCid)) ∧
    sealedPairs tr = [(⟨.initial serverCid.bytes, .client⟩, 0),
      (⟨.initial serverCid.bytes, .client⟩, 0)] ∧
    ¬ (sealedPairs tr).Nodup := by
  have hinit : Run (step (α := Unit) plainProtection zeroTag) (fun _ _ => True)
    (newClient serverCid) [] _ := .nil
  have hrun := ((hinit.push initialPing rfl trivial).push
    (KeyEvent.retry (retryPacket serverCid) (retryHeader serverCid)) rfl trivial).push
    initialPing rfl trivial
  exact ⟨_, _, hrun, rfl, by decide +kernel, by decide +kernel, by decide +kernel⟩

end KeyState

end Starfish.Quic
