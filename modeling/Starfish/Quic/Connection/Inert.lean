import Starfish.Quic.Connection.Nonces
import Starfish.Quic.Connection.Receive

/-!
# Datagrams that do not authenticate

Three places change the connection before a packet is authenticated. The first
long header fixes the connection ID of the peer, a 1-RTT packet with the other key
phase advances the secrets for the next key update, and a packet for which there
are no keys counts as processed, so that its source address is probed. A datagram
that reaches none of them, and none of whose packets opens, changes nothing but the
counters of received bytes.
-/

namespace Starfish.Quic

universe u v

namespace Receiver

variable {α : Type u} {γ : Type v} (P : PacketProtection) (R : RetryIntegrity)
  (E : ReceiveEnv α γ)

/-! ## What a packet reaches -/

def readPacket (s : Receiver α γ) (space : PacketNumberSpace) (kind : ReceivedPacketKind)
    (data : Bytes) : Option (KeyId × Unprotected) :=
  match s.remoteKeys space kind with
  | none => none
  | some keys =>
    match packetBounds s.cidLen data with
    | .ok (some bounds) =>
      match unprotect P (s.largestRecvPn space) keys.2 data bounds.1 bounds.2 with
      | .ok u => some (keys.1, u)
      | .error _ => none
    | _ => none

def OtherPhase (s : Receiver α γ) (data : Bytes) (u : Unprotected) : Prop :=
  isLongHeader (byteAt data 0) = false ∧ u.keyPhase ≠ s.keys.remoteKeyPhase

instance (s : Receiver α γ) (data : Bytes) (u : Unprotected) : Decidable (s.OtherPhase data u) :=
  inferInstanceAs (Decidable (_ ∧ _))

/-- The installed key that a packet is opened with. A packet with the other key phase has one
only while an update that was started here is pending. -/
def installedKey (s : Receiver α γ) (data : Bytes) (packetKey : KeyId) (u : Unprotected) :
    Option KeyId :=
  if s.OtherPhase data u then
    if u.pn < s.keys.keyUpdatePn then none
    else (s.keys.pendingRemoteKeyUpdate.filter fun update => update.keyPhase == u.keyPhase).map
      fun update => update.remote
  else some packetKey

def Opens (s : Receiver α γ) (space : PacketNumberSpace) (kind : ReceivedPacketKind)
    (data : Bytes) : Prop :=
  ∃ packetKey u key plaintext, s.readPacket P space kind data = some (packetKey, u) ∧
    s.installedKey data packetKey u = some key ∧
    P.decryptPacket u.pn u.header u.ciphertext key = .ok plaintext

def DerivesKeys (s : Receiver α γ) (space : PacketNumberSpace) (kind : ReceivedPacketKind)
    (data : Bytes) : Prop :=
  ∃ packetKey u, s.readPacket P space kind data = some (packetKey, u) ∧ s.OtherPhase data u ∧
    s.keys.keyUpdatePn ≤ u.pn ∧
    s.keys.pendingRemoteKeyUpdate.filter (fun update => update.keyPhase == u.keyPhase) = none ∧
    s.keys.nextSecrets.isSome = true

def Ignored (s : Receiver α γ) (space : PacketNumberSpace) (kind : ReceivedPacketKind)
    (data : Bytes) : Prop :=
  s.remoteKeys space kind = none ∨ packetBounds s.cidLen data = .ok none

def StartsValidation (s : Receiver α γ) (addr : α) : Prop :=
  s.keys.state = .connected ∧ addr ≠ s.paths.peerAddr ∧ s.cidLen ≠ 0 ∧
    ¬ (s.keys.side = .client ∧ s.peerDisableActiveMigration = true) ∧
    s.pendingPeerPathValidation = none

/-- The packet reaches none of the places that change the connection. -/
def PacketInert (s : Receiver α γ) (space : PacketNumberSpace) (kind : ReceivedPacketKind)
    (data : Bytes) (addr : α) : Prop :=
  ¬ s.DerivesKeys P space kind data ∧
    (s.Ignored space kind data → ¬ s.StartsValidation addr)

/-- What the loop finds at the front of the datagram. -/
inductive Visit
  | unreadable (data : Bytes)
  | versionNegotiation
  | retry
  | truncated
  | skipped
  | long (space : PacketNumberSpace) (kind : ReceivedPacketKind) (data : Bytes)
  | short (data : Bytes)

def visit (s : Receiver α γ) (remaining : Bytes) : Visit :=
  match parseHeader remaining s.cidLen with
  | .error _ => .unreadable remaining
  | .ok (.versionNegotiation _) => .versionNegotiation
  | .ok (.short _) => .short remaining
  | .ok (.long h) =>
    match longPacketKind h.packetType with
    | none => .retry
    | some (space, kind) =>
      match longPacketEnd h remaining with
      | .error _ => .truncated
      | .ok stop =>
        if s.keys.side = .client ∧ kind = .zeroRtt then .skipped
        else .long space kind (remaining.take stop)

def reached [DecidableEq α] (s : Receiver α γ) (addr : α) (ecn : Option UdpEcnCodepoint) :
    Nat → Bytes → List Visit
  | 0, _ => []
  | _ + 1, [] => []
  | fuel + 1, b :: rest =>
    s.visit (b :: rest) ::
      match (s.processNext P R E (b :: rest) addr ecn).1 with
      | .done _ => []
      | .next left => reached s addr ecn fuel left

/-- Neither a Retry nor a Version Negotiation packet nor a stateless reset, and no packet that
opens under an installed key. -/
def Visit.Unauthentic (s : Receiver α γ) : Visit → Prop
  | .unreadable data => s.isStatelessReset data = false
  | .versionNegotiation => False
  | .retry => False
  | .truncated => True
  | .skipped => True
  | .long space kind data => ¬ s.Opens P space kind data
  | .short data => s.isStatelessReset data = false ∧ ¬ s.Opens P .applicationData .oneRtt data

/-- The connection ID of the peer is fixed before a long header is seen, and the packet is
inert. -/
def Visit.Inert (s : Receiver α γ) (addr : α) : Visit → Prop
  | .truncated => s.peerInitialSourceConnectionId.isSome = true
  | .skipped => s.peerInitialSourceConnectionId.isSome = true
  | .long space kind data =>
    s.peerInitialSourceConnectionId.isSome = true ∧ s.PacketInert P space kind data addr
  | .short data => s.PacketInert P .applicationData .oneRtt data addr
  | _ => True

/-! ## One packet -/

variable {P R E} {s : Receiver α γ} {space : PacketNumberSpace} {kind : ReceivedPacketKind}
  {data : Bytes}

theorem processPacket_ignored (h : s.Ignored space kind data) (addr : α)
    (ecn : Option UdpEcnCodepoint) :
    s.processPacket P E space kind data addr ecn = (.ok (), s) := by
  unfold processPacket
  rcases h with hkeys | hbounds
  · rw [hkeys]
  · split
    · rfl
    · rw [hbounds]

theorem processPacket_read (h : ¬ s.Ignored space kind data) (addr : α)
    (ecn : Option UdpEcnCodepoint) :
    (s.readPacket P space kind data = none ∧
        ∃ e, s.processPacket P E space kind data addr ecn = (.error e, s)) ∨
      ∃ packetKey u, s.readPacket P space kind data = some (packetKey, u) ∧
        (∃ headerKey pnOffset payloadEnd,
          unprotect P (s.largestRecvPn space) headerKey data pnOffset payloadEnd = .ok u) ∧
        s.processPacket P E space kind data addr ecn =
          s.afterDecrypt E space kind u.pn data.length addr ecn
            (s.decrypt P packetKey (!isLongHeader (byteAt data 0)) u) := by
  unfold processPacket readPacket
  cases hkeys : s.remoteKeys space kind with
  | none => exact absurd (Or.inl hkeys) h
  | some keys =>
    cases hbounds : packetBounds s.cidLen data with
    | error e => exact Or.inl ⟨rfl, e, rfl⟩
    | ok bounds =>
      cases bounds with
      | none => exact absurd (Or.inr hbounds) h
      | some bounds =>
        cases hread : unprotect P (s.largestRecvPn space) keys.2 data bounds.1 bounds.2 with
        | error e =>
          simp_all
        | ok u =>
          grind

theorem decrypt_eq (s : Receiver α γ) (data : Bytes) (packetKey : KeyId) (u : Unprotected) :
    s.decrypt P packetKey (!isLongHeader (byteAt data 0)) u =
      if s.OtherPhase data u then
        s.keys.tryDecryptWithNextKeys P u.pn u.keyPhase u.header u.ciphertext
      else (P.decryptPacket u.pn u.header u.ciphertext packetKey, s.keys) := by
  unfold decrypt
  by_cases hphase : s.OtherPhase data u
  · rw [if_pos hphase, if_pos ⟨by rw [hphase.1]; rfl, hphase.2⟩]
  · rw [if_neg hphase, if_neg]
    intro hshort
    exact hphase ⟨by simpa using hshort.1, hshort.2⟩

theorem decrypt_installed (s : Receiver α γ) (data : Bytes) (packetKey : KeyId) (u : Unprotected)
    (hfail : ∀ key plaintext, s.installedKey data packetKey u = some key →
      P.decryptPacket u.pn u.header u.ciphertext key ≠ .ok plaintext)
    (hderive : ¬ (s.OtherPhase data u ∧ s.keys.keyUpdatePn ≤ u.pn ∧
      s.keys.pendingRemoteKeyUpdate.filter (fun update => update.keyPhase == u.keyPhase) = none ∧
      s.keys.nextSecrets.isSome = true)) :
    ∃ e, s.decrypt P packetKey (!isLongHeader (byteAt data 0)) u = (.error e, s.keys) := by
  rw [decrypt_eq]
  unfold installedKey at hfail
  split
  · next hphase =>
    rw [if_pos hphase] at hfail
    unfold KeyState.tryDecryptWithNextKeys
    split
    · exact ⟨_, rfl⟩
    · next hpn =>
      rw [if_neg hpn] at hfail
      cases hpending : s.keys.pendingRemoteKeyUpdate.filter
          fun update => update.keyPhase == u.keyPhase with
      | some pending =>
        dsimp only
        rw [hpending] at hfail
        cases hdecrypt : P.decryptPacket u.pn u.header u.ciphertext pending.remote with
        | error e => exact ⟨e, rfl⟩
        | ok plaintext => exact absurd hdecrypt (hfail pending.remote plaintext rfl)
      | none =>
        cases hsecrets : s.keys.nextSecrets with
        | none => exact ⟨_, rfl⟩
        | some secrets =>
          refine absurd ⟨hphase, Nat.le_of_not_lt hpn, hpending, ?_⟩ hderive
          rw [hsecrets]
          rfl
  · next hphase =>
    rw [if_neg hphase] at hfail
    cases hdecrypt : P.decryptPacket u.pn u.header u.ciphertext packetKey with
    | error e => exact ⟨e, rfl⟩
    | ok plaintext => exact absurd hdecrypt (hfail packetKey plaintext rfl)

theorem processPacket_failed (hignored : ¬ s.Ignored space kind data)
    (hopens : ¬ s.Opens P space kind data) (hderives : ¬ s.DerivesKeys P space kind data)
    (addr : α) (ecn : Option UdpEcnCodepoint) :
    ∃ e, s.processPacket P E space kind data addr ecn = (.error e, s) := by
  rcases processPacket_read (P := P) (E := E) hignored addr ecn with
    ⟨-, hearly⟩ | ⟨packetKey, u, hread, -, hprocess⟩
  · exact hearly
  · obtain ⟨e, hdecrypt⟩ := decrypt_installed (P := P) s data packetKey u
      (fun key plaintext hkey hopen => hopens ⟨packetKey, u, key, plaintext, hread, hkey, hopen⟩)
      (fun hderive => hderives ⟨packetKey, u, hread, hderive⟩)
    rw [hdecrypt] at hprocess
    exact ⟨e, hprocess⟩

theorem captureSourceCid_eq (h : LongHeader)
    (hfixed : s.peerInitialSourceConnectionId.isSome = true) :
    s.captureSourceCid h = s := by
  unfold captureSourceCid
  grind

theorem processPacket_inert (hopens : ¬ s.Opens P space kind data)
    {addr : α} (hinert : s.PacketInert P space kind data addr) (ecn : Option UdpEcnCodepoint) :
    (s.processPacket P E space kind data addr ecn = (.ok (), s) ∧ ¬ s.StartsValidation addr) ∨
      ∃ e, s.processPacket P E space kind data addr ecn = (.error e, s) := by
  by_cases hignored : s.Ignored space kind data
  · exact Or.inl ⟨processPacket_ignored hignored addr ecn, hinert.2 hignored⟩
  · exact Or.inr (processPacket_failed hignored hopens hinert.1 addr ecn)

/-! ## One visit of the loop -/

variable [DecidableEq α] {addr : α}

def HasEntry (s : Receiver α γ) (addr : α) : Prop :=
  s.paths.side = .server → addr ≠ s.paths.peerAddr → s.paths.ensureEntry addr = s.paths

theorem beginPeerPathValidation_eq (hentry : s.HasEntry addr)
    (hstart : ¬ s.StartsValidation addr) : s.beginPeerPathValidation E addr = s := by
  unfold beginPeerPathValidation startPathValidation
  split
  · rfl
  · next hgate =>
    have hpaths : (if s.paths.side = .server then { s with paths := s.paths.ensureEntry addr }
        else s) = s := by
      split
      · next hserver => rw [hentry hserver (fun heq => hgate (Or.inr (Or.inl heq)))]
      · rfl
    dsimp only
    rw [hpaths]
    split
    · rfl
    · next hallowed =>
      split
      · rfl
      · next hpending =>
        exfalso
        apply hstart
        simp only [not_or, Decidable.not_not] at hgate
        refine ⟨hgate.1, hgate.2.1, hgate.2.2, fun hclient => hallowed ⟨rfl, hclient⟩, ?_⟩
        simpa using hpending

variable {remaining : Bytes}

theorem processNext_inert (hentry : s.HasEntry addr) (hunauth : (s.visit remaining).Unauthentic P s)
    (hinert : (s.visit remaining).Inert P s addr) (ecn : Option UdpEcnCodepoint) :
    (s.processNext P R E remaining addr ecn).2 = s := by
  unfold processNext
  unfold visit at hunauth hinert
  cases hparse : parseHeader remaining s.cidLen with
  | error e =>
    grind [Visit.Unauthentic]
  | ok header =>
    rw [hparse] at hunauth hinert
    cases header with
    | versionNegotiation versions => exact hunauth.elim
    | short dcid =>
      dsimp only [Visit.Unauthentic, Visit.Inert] at hunauth hinert ⊢
      unfold processShort
      rcases processPacket_inert (E := E) hunauth.2 hinert ecn with ⟨hok, hstart⟩ | ⟨e, herror⟩
      · grind [beginPeerPathValidation_eq]
      · grind
    | long h =>
      dsimp only at hunauth hinert ⊢
      unfold processLong
      cases hkind : longPacketKind h.packetType with
      | none =>
        rw [hkind] at hunauth
        exact hunauth.elim
      | some spaceKind =>
        obtain ⟨space, kind⟩ := spaceKind
        rw [hkind] at hunauth hinert
        cases hstop : longPacketEnd h remaining with
        | error e =>
          rw [hstop] at hinert
          exact captureSourceCid_eq h hinert
        | ok stop =>
          rw [hstop] at hunauth hinert
          dsimp only at hunauth hinert ⊢
          by_cases hskip : s.keys.side = .client ∧ kind = .zeroRtt
          · rw [if_pos hskip] at hinert
            rw [captureSourceCid_eq h hinert, processLongPacket, if_pos hskip]
          · rw [if_neg hskip] at hunauth hinert
            rw [captureSourceCid_eq h hinert.1, processLongPacket, if_neg hskip]
            rcases processPacket_inert (E := E) hunauth hinert.2 ecn with
              ⟨hok, hstart⟩ | ⟨e, herror⟩
            all_goals grind [beginPeerPathValidation_eq]

variable {fuel : Nat} {r : Except QuicError Unit}

variable {ecn : Option UdpEcnCodepoint} {visits : List Visit}

theorem processPackets_inert (hentry : s.HasEntry addr)
    {t : Receiver α γ} (hunauth : ∀ v ∈ s.reached P R E addr ecn fuel remaining, v.Unauthentic P s)
    (hinert : ∀ v ∈ s.reached P R E addr ecn fuel remaining, v.Inert P s addr)
    (h : processPackets P R E addr ecn fuel s remaining = some (r, t)) : t = s := by
  induction fuel generalizing remaining with
  | zero =>
    cases remaining with
    | nil =>
      cases h
      rfl
    | cons b rest => cases h
  | succ fuel ih =>
    cases remaining with
    | nil =>
      cases h
      rfl
    | cons b rest =>
      simp only [reached, List.forall_mem_cons] at hunauth hinert
      simp only [processPackets] at h
      have hsame := processNext_inert (R := R) (E := E) hentry hunauth.1 hinert.1 ecn
      grind

/-! ## What is changed stays changed -/

variable (P) in
/-- No packet in the datagram opens under any key. -/
def Forged (data : Bytes) : Prop :=
  ∀ packet, packet <:+: data → ∀ largest headerKey pnOffset payloadEnd u,
    unprotect P largest headerKey packet pnOffset payloadEnd = .ok u →
    ∀ key plaintext, P.decryptPacket u.pn u.header u.ciphertext key ≠ .ok plaintext

/-- None of the three changes is taken back. -/
structure Grows (s t : Receiver α γ) : Prop where
  cid : s.peerInitialSourceConnectionId.isSome = true →
    t.peerInitialSourceConnectionId.isSome = true
  validation : s.pendingPeerPathValidation.isSome = true →
    t.pendingPeerPathValidation.isSome = true
  secrets : ∀ a, s.keys.nextSecrets = some a →
    ∃ b, t.keys.nextSecrets = some b ∧ a.generation ≤ b.generation

/-- One of the three places was reached. -/
def Changed (s t : Receiver α γ) : Prop :=
  (s.peerInitialSourceConnectionId = none ∧ t.peerInitialSourceConnectionId.isSome = true) ∨
  (s.pendingPeerPathValidation = none ∧ t.pendingPeerPathValidation.isSome = true) ∨
  ∃ a b, s.keys.nextSecrets = some a ∧ t.keys.nextSecrets = some b ∧ a.generation < b.generation

section Change

omit [DecidableEq α]

variable {t u : Receiver α γ}

theorem Grows.refl (s : Receiver α γ) : Grows s s :=
  ⟨id, id, fun a ha => ⟨a, ha, Nat.le_refl _⟩⟩

theorem Grows.trans (h : Grows s t) (hnext : Grows t u) : Grows s u where
  cid hs := hnext.cid (h.cid hs)
  validation hs := hnext.validation (h.validation hs)
  secrets a ha := by
    grind [cases Grows]

theorem Changed.grows (h : Changed s t) (hnext : Grows t u) : Changed s u := by
  rcases h with ⟨hs, ht⟩ | ⟨hs, ht⟩ | ⟨a, b, ha, hb, hab⟩
  · exact Or.inl ⟨hs, hnext.cid ht⟩
  · exact Or.inr (Or.inl ⟨hs, hnext.validation ht⟩)
  · obtain ⟨c, hc, hbc⟩ := hnext.secrets b hb
    exact Or.inr (Or.inr ⟨a, c, ha, hc, Nat.lt_of_lt_of_le hab hbc⟩)

theorem Changed.ne (h : Changed s t) : t ≠ s := by
  intro heq
  rcases h with ⟨hs, ht⟩ | ⟨hs, ht⟩ | ⟨a, b, ha, hb, hab⟩
  all_goals grind

theorem captureSourceCid_grows (s : Receiver α γ) (h : LongHeader) :
    Grows s (s.captureSourceCid h) := by
  unfold captureSourceCid
  split
  · refine ⟨fun _ => rfl, id, ?_⟩
    grind
  · exact .refl s

theorem enterDraining_grows (s : Receiver α γ) : Grows s (s.enterDraining E) := by
  unfold enterDraining
  split
  · exact .refl s
  · exact ⟨id, id, fun a ha => ⟨a, ha, Nat.le_refl _⟩⟩

theorem processRetry_grows (s : Receiver α γ) (data : Bytes) (h : LongHeader) :
    Grows s (s.processRetry R E data h).2 := by
  unfold processRetry
  split
  · exact .refl s
  · exact .refl s
  · exact ⟨id, id, fun a ha => ⟨a, ha, Nat.le_refl _⟩⟩

theorem decrypt_forged {u : Unprotected}
    (hforged : ∀ key plaintext, P.decryptPacket u.pn u.header u.ciphertext key ≠ .ok plaintext)
    (s : Receiver α γ) (data : Bytes) (packetKey : KeyId) :
    ∃ e keys, s.decrypt P packetKey (!isLongHeader (byteAt data 0)) u = (.error e, keys) ∧
      Grows s { s with keys := keys } ∧
      ((s.OtherPhase data u ∧ s.keys.keyUpdatePn ≤ u.pn ∧
        s.keys.pendingRemoteKeyUpdate.filter (fun update => update.keyPhase == u.keyPhase) = none ∧
        s.keys.nextSecrets.isSome = true) → Changed s { s with keys := keys }) := by
  by_cases hderive : s.OtherPhase data u ∧ s.keys.keyUpdatePn ≤ u.pn ∧
      s.keys.pendingRemoteKeyUpdate.filter (fun update => update.keyPhase == u.keyPhase) = none ∧
      s.keys.nextSecrets.isSome = true
  · obtain ⟨hphase, hpn, hpending, hsome⟩ := hderive
    obtain ⟨secrets, hsecrets⟩ := Option.isSome_iff_exists.mp hsome
    cases hdecrypt : P.decryptPacket u.pn u.header u.ciphertext
        (s.keys.nextPacketKeys secrets).1.2 with
    | ok plaintext => exact absurd hdecrypt (hforged _ _)
    | error e =>
      have hnext : s.decrypt P packetKey (!isLongHeader (byteAt data 0)) u =
          (.error e, (s.keys.nextPacketKeys secrets).2) := by
        rw [decrypt_eq, if_pos hphase, KeyState.tryDecryptWithNextKeys,
          if_neg (Nat.not_lt.mpr hpn), hpending, hsecrets]
        dsimp only
        rw [hdecrypt]
      refine ⟨e, _, hnext, ⟨id, id, ?_⟩, fun _ => Or.inr (Or.inr ?_)⟩
      · intro a ha
        cases ha.symm.trans hsecrets
        exact ⟨_, rfl, Nat.le_succ _⟩
      · exact ⟨secrets, _, hsecrets, rfl, Nat.lt_succ_self _⟩
  · obtain ⟨e, hdecrypt⟩ := decrypt_installed (P := P) s data packetKey u
      (fun key plaintext _ => hforged key plaintext) hderive
    exact ⟨e, s.keys, hdecrypt, .refl s, fun h => absurd h hderive⟩

theorem changes_of_not_inert (h : ¬ s.PacketInert P space kind data addr) :
    s.DerivesKeys P space kind data ∨ (s.Ignored space kind data ∧ s.StartsValidation addr) := by
  by_contra hnone
  apply h
  exact ⟨fun hderives => hnone (Or.inl hderives),
    fun hignored hstarts => hnone (Or.inr ⟨hignored, hstarts⟩)⟩

theorem processPacket_forged {packet : Bytes} (hforged : Forged P data) (hpart : packet <:+: data)
    (s : Receiver α γ) (space : PacketNumberSpace) (kind : ReceivedPacketKind) (addr : α)
    (ecn : Option UdpEcnCodepoint) :
    Grows s (s.processPacket P E space kind packet addr ecn).2 ∧
      (s.DerivesKeys P space kind packet →
        Changed s (s.processPacket P E space kind packet addr ecn).2) := by
  by_cases hignored : s.Ignored space kind packet
  · rw [processPacket_ignored hignored]
    refine ⟨.refl s, ?_⟩
    rintro ⟨packetKey, u, hread, -⟩
    rcases hignored with hkeys | hbounds
    all_goals grind [readPacket]
  · rcases processPacket_read (P := P) (E := E) hignored addr ecn with
      ⟨hunread, e, hearly⟩ |
      ⟨packetKey, u, hread, ⟨headerKey, pnOffset, payloadEnd, hclear⟩, hprocess⟩
    · rw [hearly]
      refine ⟨.refl s, ?_⟩
      rintro ⟨packetKey, u, hread, -⟩
      cases hunread.symm.trans hread
    · obtain ⟨e, keys, hdecrypt, hgrows, hchanged⟩ := decrypt_forged
        (hforged packet hpart _ _ _ _ u hclear) s packet packetKey
      rw [hprocess, hdecrypt]
      refine ⟨hgrows, ?_⟩
      rintro ⟨packetKey', u', hread', hderive⟩
      cases hread.symm.trans hread'
      exact hchanged hderive

end Change

theorem beginPeerPathValidation_grows (s : Receiver α γ) (addr : α) :
    Grows s (s.beginPeerPathValidation E addr) ∧
      (s.StartsValidation addr → Changed s (s.beginPeerPathValidation E addr)) := by
  unfold beginPeerPathValidation startPathValidation
  split
  · next hgate =>
    refine ⟨.refl s, ?_⟩
    rintro ⟨hstate, haddr, hcid, -⟩
    exact absurd hgate (by simp [hstate, haddr, hcid])
  · have hpaths : (if s.paths.side = .server then { s with paths := s.paths.ensureEntry addr }
        else s) = { s with paths := if s.paths.side = .server then s.paths.ensureEntry addr
          else s.paths } := by
      split <;> rfl
    dsimp only
    rw [hpaths]
    generalize (if s.paths.side = .server then s.paths.ensureEntry addr else s.paths) = paths
    split
    · next hmigration =>
      refine ⟨⟨id, id, fun a ha => ⟨a, ha, Nat.le_refl _⟩⟩, ?_⟩
      rintro ⟨-, -, -, hallowed, -⟩
      exact absurd hmigration.2 hallowed
    · split
      · next hpending =>
        refine ⟨⟨id, id, fun a ha => ⟨a, ha, Nat.le_refl _⟩⟩, ?_⟩
        rintro ⟨-, -, -, -, hnone⟩
        rw [hnone] at hpending
        cases hpending
      · refine ⟨⟨id, fun _ => rfl, fun a ha => ⟨a, ha, Nat.le_refl _⟩⟩, ?_⟩
        rintro ⟨-, -, -, -, hnone⟩
        exact Or.inr (Or.inl ⟨hnone, rfl⟩)

theorem processLongPacket_forged (hforged : Forged P data) {stop : Nat}
    (hpart : remaining.take stop <:+: data) (s : Receiver α γ) (space : PacketNumberSpace)
    (kind : ReceivedPacketKind) (addr : α) (ecn : Option UdpEcnCodepoint) :
    Grows s (s.processLongPacket P E space kind remaining stop addr ecn).2 ∧
      (¬ (s.keys.side = .client ∧ kind = .zeroRtt) →
        ¬ s.PacketInert P space kind (remaining.take stop) addr →
        Changed s (s.processLongPacket P E space kind remaining stop addr ecn).2) := by
  unfold processLongPacket
  split
  · next hskip => exact ⟨.refl s, fun hsent => absurd hskip hsent⟩
  · obtain ⟨hgrows, hderives⟩ :=
      processPacket_forged (E := E) hforged hpart s space kind addr ecn
    have hignored : s.Ignored space kind (remaining.take stop) →
        s.processPacket P E space kind (remaining.take stop) addr ecn = (.ok (), s) :=
      fun h => processPacket_ignored h addr ecn
    generalize s.processPacket P E space kind (remaining.take stop) addr ecn = outcome
      at hgrows hderives hignored ⊢
    obtain ⟨result, t⟩ := outcome
    obtain ⟨hbegin, hstarts⟩ := beginPeerPathValidation_grows (E := E) t addr
    cases result with
    | ok _ =>
      refine ⟨hgrows.trans hbegin, fun _ hinert => ?_⟩
      rcases changes_of_not_inert hinert with hderive | ⟨hignore, hstart⟩
      · exact (hderives hderive).grows hbegin
      · cases hignored hignore
        exact hstarts hstart
    | error e =>
      have hlast : (if shouldSilentlyDropProtectedPacket e = true then
          (Advance.next (remaining.drop stop), t) else (Advance.done (.error e), t)).2 = t := by
        split <;> rfl
      rw [hlast]
      refine ⟨hgrows, fun _ hinert => ?_⟩
      rcases changes_of_not_inert hinert with hderive | ⟨hignore, -⟩
      all_goals grind

theorem processShort_forged (hforged : Forged P data) (hpart : remaining <:+: data)
    (s : Receiver α γ) (addr : α) (ecn : Option UdpEcnCodepoint) :
    Grows s (s.processShort P E remaining addr ecn).2 ∧
      (¬ s.PacketInert P .applicationData .oneRtt remaining addr →
        Changed s (s.processShort P E remaining addr ecn).2) := by
  unfold processShort
  obtain ⟨hgrows, hderives⟩ :=
    processPacket_forged (E := E) hforged hpart s .applicationData .oneRtt addr ecn
  have hignored : s.Ignored .applicationData .oneRtt remaining →
      s.processPacket P E .applicationData .oneRtt remaining addr ecn = (.ok (), s) :=
    fun h => processPacket_ignored h addr ecn
  generalize s.processPacket P E .applicationData .oneRtt remaining addr ecn = outcome
    at hgrows hderives hignored ⊢
  obtain ⟨result, t⟩ := outcome
  cases result with
  | ok _ =>
    obtain ⟨hbegin, hstarts⟩ := beginPeerPathValidation_grows (E := E) t addr
    dsimp only
    generalize t.beginPeerPathValidation E addr = w at hbegin hstarts ⊢
    have hlast : Grows w (if w.keys.state ≠ .draining ∧ w.keys.keys.oneRtt = none ∧
        w.isStatelessReset remaining = true then ((.ok (), w.enterDraining E) :
          Except QuicError Unit × Receiver α γ) else (.ok (), w)).2 := by
      split
      · exact enterDraining_grows w
      · exact .refl w
    refine ⟨(hgrows.trans hbegin).trans hlast, fun hinert => ?_⟩
    rcases changes_of_not_inert hinert with hderive | ⟨hignore, hstart⟩
    · exact ((hderives hderive).grows hbegin).grows hlast
    · cases hignored hignore
      exact (hstarts hstart).grows hlast
  | error e =>
    have hlast : Grows t (if t.isStatelessReset remaining = true then
        ((.ok (), t.enterDraining E) : Except QuicError Unit × Receiver α γ)
        else if shouldSilentlyDropProtectedPacket e = true then (.ok (), t)
        else (.error e, t)).2 := by
      split
      · exact enterDraining_grows t
      · split <;> exact .refl t
    refine ⟨hgrows.trans hlast, fun hinert => ?_⟩
    rcases changes_of_not_inert hinert with hderive | ⟨hignore, -⟩
    · exact (hderives hderive).grows hlast
    · cases hignored hignore

theorem processNext_forged (hforged : Forged P data) (hsuffix : remaining <:+ data)
    (s : Receiver α γ) (addr : α) (ecn : Option UdpEcnCodepoint) :
    Grows s (s.processNext P R E remaining addr ecn).2 ∧
      (¬ (s.visit remaining).Inert P s addr →
        Changed s (s.processNext P R E remaining addr ecn).2) := by
  unfold processNext visit
  cases hparse : parseHeader remaining s.cidLen with
  | error e =>
    dsimp only
    refine ⟨?_, fun hinert => absurd trivial hinert⟩
    split
    · exact enterDraining_grows s
    · exact .refl s
  | ok header =>
    cases header with
    | versionNegotiation versions =>
      dsimp only
      refine ⟨?_, fun hinert => absurd trivial hinert⟩
      split <;> exact .refl s
    | short dcid => exact processShort_forged hforged hsuffix.isInfix s addr ecn
    | long h =>
      have hcapture := captureSourceCid_grows s h
      -- A visit to a long header is not inert while the connection ID is not fixed.
      have hnew : s.peerInitialSourceConnectionId.isSome ≠ true → h.packetType ≠ .retry →
          Changed s (s.captureSourceCid h) := by
        intro hnone htype
        have hcid : s.peerInitialSourceConnectionId = none := by simpa using hnone
        refine Or.inl ⟨hcid, ?_⟩
        rw [captureSourceCid, if_pos ⟨htype, hcid⟩]
        rfl
      dsimp only
      unfold processLong
      cases hkind : longPacketKind h.packetType with
      | none =>
        exact ⟨hcapture.trans (processRetry_grows _ _ _), fun hinert => absurd trivial hinert⟩
      | some spaceKind =>
        obtain ⟨space, kind⟩ := spaceKind
        have htype : h.packetType ≠ .retry := by
          intro hretry
          rw [hretry] at hkind
          cases hkind
        cases hstop : longPacketEnd h remaining with
        | error e => exact ⟨hcapture, fun hinert => hnew hinert htype⟩
        | ok stop =>
          have hpart : remaining.take stop <:+: data :=
            (List.take_prefix stop remaining).isInfix.trans hsuffix.isInfix
          obtain ⟨hgrows, hchanged⟩ := processLongPacket_forged (E := E) hforged hpart
            (s.captureSourceCid h) space kind addr ecn
          refine ⟨hcapture.trans hgrows, fun hinert => ?_⟩
          by_cases hfixed : s.peerInitialSourceConnectionId.isSome = true
          · rw [captureSourceCid_eq h hfixed] at hchanged ⊢
            dsimp only at hinert
            split at hinert
            · exact absurd hfixed hinert
            · next hskip => exact hchanged hskip fun hpacket => hinert ⟨hfixed, hpacket⟩
          · exact (hnew hfixed htype).grows hgrows

theorem processPackets_grows (hforged : Forged P data)
    {t : Receiver α γ} (hsuffix : remaining <:+ data)
    (h : processPackets P R E addr ecn fuel s remaining = some (r, t)) : Grows s t := by
  induction fuel generalizing s remaining with
  | zero =>
    cases remaining with
    | nil =>
      cases h
      exact .refl _
    | cons b rest => cases h
  | succ fuel ih =>
    cases remaining with
    | nil =>
      cases h
      exact .refl _
    | cons b rest =>
      have hgrows := (processNext_forged (R := R) (E := E) hforged hsuffix s addr ecn).1
      simp only [processPackets] at h
      split at h
      · next result u hnext =>
        grind
      · next left u hnext =>
        rw [hnext] at hgrows
        obtain ⟨stop, -, -, rfl⟩ := processNext_next hnext
        exact hgrows.trans (ih ((List.drop_suffix _ _).trans hsuffix) h)

theorem inert_of_processPackets (hforged : Forged P data) (hentry : s.HasEntry addr)
    (hsuffix : remaining <:+ data)
    (hunauth : ∀ v ∈ s.reached P R E addr ecn fuel remaining, v.Unauthentic P s)
    (h : processPackets P R E addr ecn fuel s remaining = some (r, s)) :
    ∀ v ∈ s.reached P R E addr ecn fuel remaining, v.Inert P s addr := by
  induction fuel generalizing remaining with
  | zero => simp [reached]
  | succ fuel ih =>
    cases remaining with
    | nil => simp [reached]
    | cons b rest =>
      simp only [reached, List.forall_mem_cons] at hunauth ⊢
      simp only [processPackets] at h
      have hfirst : (s.visit (b :: rest)).Inert P s addr := by
        by_contra hbad
        have hchanged := (processNext_forged (R := R) (E := E) hforged hsuffix s addr ecn).2 hbad
        split at h
        · next result u hnext =>
          cases h
          rw [hnext] at hchanged
          exact hchanged.ne rfl
        · next left u hnext =>
          rw [hnext] at hchanged
          obtain ⟨stop, -, -, rfl⟩ := processNext_next hnext
          exact (hchanged.grows (processPackets_grows hforged
            ((List.drop_suffix _ _).trans hsuffix) h)).ne rfl
      have hsame := processNext_inert (R := R) (E := E) hentry hunauth.1 hfirst ecn
      refine ⟨hfirst, ?_⟩
      split at h
      · next result u hnext =>
        rw [hnext]
        intro v hv
        cases hv
      · next left u hnext =>
        rw [hnext] at hsame hunauth ⊢
        obtain ⟨stop, -, -, rfl⟩ := processNext_next hnext
        subst hsame
        exact ih ((List.drop_suffix _ _).trans hsuffix) hunauth.2 h

/-! ## Whole datagrams -/

def countReceived (s : Receiver α γ) (addr : α) (bytes : Nat) : Receiver α γ :=
  { s with paths := s.paths.recordUnvalidatedBytesReceived addr bytes }

theorem countReceived_hasEntry (s : Receiver α γ) (addr : α) (bytes : Nat) :
    (s.countReceived addr bytes).HasEntry addr := by
  intro hserver haddr
  unfold countReceived PeerPaths.recordUnvalidatedBytesReceived at hserver haddr ⊢
  rw [PeerPaths.updateUnvalidated_side] at hserver
  rw [PeerPaths.updateUnvalidated_peerAddr] at haddr
  rw [PeerPaths.updateUnvalidated, if_neg (by simp [hserver]), if_neg haddr]
  simp [PeerPaths.ensureEntry, PeerPaths.insert, PeerPaths.entry]

/-- A datagram none of whose packets opens under an installed key, and which is no Retry,
Version Negotiation packet or stateless reset, changes nothing but the counters of received
bytes if every visit is inert; for a datagram that opens under no key at all, only then. -/
theorem unauthenticated_datagram_inert_iff (P : PacketProtection) (R : RetryIntegrity)
    (E : ReceiveEnv α γ) (s : Receiver α γ) (data : Bytes) (addr : α)
    (ecn : Option UdpEcnCodepoint)
    (hunauth : ∀ v ∈ (s.countReceived addr data.length).reached P R E addr ecn data.length data,
      v.Unauthentic P (s.countReceived addr data.length)) :
    let t := s.countReceived addr data.length
    ((∀ v ∈ t.reached P R E addr ecn data.length data, v.Inert P t addr) →
      (s.processDatagramFromWithEcn P R E data addr ecn).2 = t) ∧
    (Forged P data →
      ((s.processDatagramFromWithEcn P R E data addr ecn).2 = t ↔
        ∀ v ∈ t.reached P R E addr ecn data.length data, v.Inert P t addr)) := by
  have hentry := s.countReceived_hasEntry addr data.length
  have hloop : processPackets P R E addr ecn data.length (s.countReceived addr data.length) data =
      some (s.processDatagramFromWithEcn P R E data addr ecn) :=
    (Option.some_get (processPackets_isSome P R E (s.countReceived addr data.length) data addr ecn
      (Nat.le_refl _))).symm
  generalize s.processDatagramFromWithEcn P R E data addr ecn = outcome at hloop ⊢
  obtain ⟨result, t⟩ := outcome
  have hinert : (∀ v ∈ (s.countReceived addr data.length).reached P R E addr ecn data.length data,
      v.Inert P (s.countReceived addr data.length) addr) → t = s.countReceived addr data.length :=
    fun h => processPackets_inert hentry hunauth h hloop
  refine ⟨hinert, fun hforged => ⟨?_, hinert⟩⟩
  intro hsame
  subst hsame
  exact inert_of_processPackets hforged hentry List.suffix_rfl hunauth hloop

/-! ## Forged packets -/

def deafProtection : PacketProtection :=
  { KeyState.plainProtection with decryptInPlace := fun _ _ _ _ => none }

def quietEnv : ReceiveEnv Bool Unit where
  processOpened s _ _ _ := (.ok (), s)
  afterRetry := id
  drain := id
  challenge _ := List.replicate 8 0

def Visit.isSpecial : Visit → Bool
  | .versionNegotiation => true
  | .retry => true
  | _ => false

omit [DecidableEq α] in
theorem unauthentic_of_deaf (htokens : s.peerStatelessResetTokens = [])
    (h : visits.all (fun v => !v.isSpecial) = true) :
    ∀ v ∈ visits, v.Unauthentic deafProtection s := by
  have hopens : ∀ space kind data, ¬ s.Opens deafProtection space kind data := by
    rintro space kind data ⟨packetKey, u, key, plaintext, -, -, hopen⟩
    cases hopen
  have hreset : ∀ data, s.isStatelessReset data = false := by
    intro data
    simp [isStatelessReset, htokens]
  intro v hv
  have hplain := List.all_eq_true.mp h v hv
  cases v with
  | unreadable data => exact hreset data
  | versionNegotiation | retry => cases hplain
  | truncated => trivial
  | skipped => trivial
  | long space kind data => exact hopens space kind data
  | short data => exact ⟨hreset data, hopens _ _ _⟩

def clientReceiver (keys : KeyState) (peerScid : Option ConnectionId) : Receiver Bool Unit where
  keys := keys
  paths := ⟨.client, false, 0, 0, true, fun _ => none⟩
  peerInitialSourceConnectionId := peerScid
  largestRecvPn _ := 0
  cidLen := 8
  peerStatelessResetTokens := []
  peerDisableActiveMigration := false
  pendingPeerPathValidation := none
  pendingTargetedFrames := []
  rest := ()

def establishedKeys : KeyState :=
  (((KeyState.newClient KeyState.serverCid).installKeys (.handshake 0)).installKeys
    (.oneRtt 0)).processDeferredKeyDiscards

def attackerCid : ConnectionId := .fromSlice [6, 6, 6]

def forgedLong (packetType : LongPacketType) (fields : Bytes) : Bytes :=
  encodeLongHeader packetType KeyState.clientCid attackerCid 1 ++ fields ++ List.replicate 24 0

/-- A 1-RTT packet with the key phase bit. -/
def forgedShort : Bytes := 0x44 :: KeyState.clientCid.bytes ++ List.replicate 24 0

/-- There are no keys for the packet. -/
def Visit.isKeyless (s : Receiver α γ) : Visit → Bool
  | .long space kind _ => (s.remoteKeys space kind).isNone
  | .short _ => false
  | _ => true

omit [DecidableEq α] in
theorem inert_of_keyless (hfixed : s.peerInitialSourceConnectionId.isSome = true)
    (h : visits.all (Visit.isKeyless s) = true) : ∀ v ∈ visits, v.Inert P s s.paths.peerAddr := by
  intro v hv
  have hkeyless := List.all_eq_true.mp h v hv
  cases v with
  | unreadable data => trivial
  | versionNegotiation => trivial
  | retry => trivial
  | truncated | skipped => exact hfixed
  | long space kind data =>
    have hnone : s.remoteKeys space kind = none := by simpa [Visit.isKeyless] using hkeyless
    refine ⟨hfixed, ?_, fun _ hstarts => hstarts.2.1 rfl⟩
    rintro ⟨packetKey, u, hread, -⟩
    simp [readPacket, hnone] at hread
  | short data => cases hkeyless

/-- A forged Initial packet, and behind it a forged 0-RTT packet, leave an established client
as it is. -/
theorem forged_packets_ignored :
    let s := clientReceiver establishedKeys (some KeyState.serverCid)
    let data := forgedLong .initial [0, 24] ++ forgedLong .zeroRtt [24]
    (s.processDatagramFromWithEcn deafProtection KeyState.zeroTag quietEnv data false none).2 =
      s.countReceived false data.length := by
  refine (unauthenticated_datagram_inert_iff deafProtection KeyState.zeroTag quietEnv _ _ _ _
    (unauthentic_of_deaf rfl (by decide +kernel))).1 ?_
  exact inert_of_keyless rfl (by decide +kernel)

/-- A forged Initial packet fixes the connection ID of the peer for a new client; a forged 1-RTT
packet with the other key phase advances the next secrets; a forged Handshake packet from
another address makes an established client probe that address. -/
theorem forged_packets_change_connection :
    (let s := clientReceiver (KeyState.newClient KeyState.serverCid) none
     let data := forgedLong .initial [0, 24]
     let t := (s.processDatagramFromWithEcn deafProtection KeyState.zeroTag quietEnv data false
       none).2
     (∀ v ∈ (s.countReceived false data.length).reached deafProtection KeyState.zeroTag quietEnv
       false none data.length data, v.Unauthentic deafProtection
         (s.countReceived false data.length)) ∧
       s.keys.peerCid = KeyState.serverCid ∧ t.keys.peerCid = attackerCid ∧
       t.peerInitialSourceConnectionId = some attackerCid) ∧
    (let s := clientReceiver establishedKeys (some KeyState.serverCid)
     let t := (s.processDatagramFromWithEcn deafProtection KeyState.zeroTag quietEnv forgedShort
       false none).2
     s.keys.nextSecrets = some ⟨0, 1⟩ ∧ t.keys.nextSecrets = some ⟨0, 2⟩) ∧
    (let s := clientReceiver establishedKeys (some KeyState.serverCid)
     let t := (s.processDatagramFromWithEcn deafProtection KeyState.zeroTag quietEnv
       (forgedLong .handshake [24]) true none).2
     s.pendingPeerPathValidation = none ∧
       t.pendingPeerPathValidation =
         some ⟨true, List.replicate 8 0, .observedPeerMigration⟩) := by
  refine ⟨⟨unauthentic_of_deaf rfl (by decide +kernel), rfl, by decide +kernel, by decide +kernel⟩,
    ⟨by decide +kernel, by decide +kernel⟩, ⟨rfl, by decide +kernel⟩⟩

end Receiver

end Starfish.Quic
