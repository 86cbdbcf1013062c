import Mathlib.Data.List.Pairwise
import Starfish.Quic.Connection.Closing
import Starfish.Quic.Connection.Nonces

/-!
# The states a closing connection goes through

The history of a connection is followed through every call. What each assignment may find
and what it assigns decides whether the connection, once it closes or drains, stays so.
-/

namespace Starfish.Quic

def ConnectionState.MayBecome : ConnectionState → ConnectionState → Prop
  | .closing, next => next = .closing ∨ next = .draining ∨ next = .closed
  | .draining, next => next = .draining ∨ next = .closed
  | .closed, next => next = .closed
  | _, _ => True

instance (state next : ConnectionState) : Decidable (state.MayBecome next) := by
  cases state <;> unfold ConnectionState.MayBecome <;> infer_instance

theorem ConnectionState.MayBecome.trans {a b c : ConnectionState} (h : a.MayBecome b)
    (hnext : b.MayBecome c) : a.MayBecome c := by
  cases a <;> cases b <;> simp_all [MayBecome]

def Assigner.connects : Assigner → Bool
  | .handshakeDone => true
  | .installKeys (.oneRtt _) => true
  | _ => false

/-- What an assignment may find and what it leaves behind. -/
def Assigner.Assigns (state : ConnectionState) : Assigner → ConnectionState → Prop
  | .enterDraining, next => state ≠ .closed ∧ next = .draining
  | .handshakeDone, next => next = .connected
  | .installKeys (.handshake _), next => next = if state = .initial then .handshake else state
  | .installKeys (.oneRtt _), next => next = .connected
  | .beginLocalClose, next => state.hasEnded = false ∧ next = .closing
  | .idleTimeout, next => state.hasEnded = false ∧ next = .closed
  | .closeTimeout, next => (state = .closing ∨ state = .draining) ∧ next = .closed

abbrev History : Type := List (Assigner × ConnectionState)

namespace History

def states (state : ConnectionState) (history : History) : List ConnectionState :=
  state :: history.map Prod.snd

/-- Once the connection closes, it goes only forward. -/
def Absorbing (state : ConnectionState) (history : History) : Prop :=
  (states state history).Pairwise ConnectionState.MayBecome

def ConnectsInTime : ConnectionState → History → Prop
  | _, [] => True
  | state, (assigner, next) :: history =>
    (state.hasEnded = true → assigner.connects = false) ∧ ConnectsInTime next history

def Leads : ConnectionState → History → ConnectionState → Prop
  | state, [], last => state = last
  | state, (assigner, next) :: history, last =>
    assigner.Assigns state next ∧ Leads next history last

instance decidableConnectsInTime : (state : ConnectionState) → (history : History) →
    Decidable (ConnectsInTime state history)
  | _, [] => .isTrue trivial
  | _, (_, next) :: history =>
    have := decidableConnectsInTime next history
    inferInstanceAs (Decidable (_ ∧ _))

variable {a b : ConnectionState}

theorem Leads.append {c : ConnectionState} {first second : History} (h : Leads a first b)
    (hnext : Leads b second c) : Leads a (first ++ second) c := by
  induction first generalizing a with
  | nil =>
    cases h
    exact hnext
  | cons entry first ih => exact ⟨h.1, ih h.2⟩

theorem Leads.getLast {history : History} (h : Leads a history b) :
    (states a history).getLast (List.cons_ne_nil _ _) = b := by
  induction history generalizing a with
  | nil => exact h
  | cons entry history ih => exact ih h.2

/-- Among what assignments may do, the two that connect are the only ones that can leave the
closing states. -/
theorem mayBecome_iff {assigner : Assigner} {state next : ConnectionState}
    (h : assigner.Assigns state next) :
    state.MayBecome next ↔ (state.hasEnded = true → assigner.connects = false) := by
  cases assigner with
  | installKeys change =>
    cases change <;> cases state <;>
      simp_all [Assigner.Assigns, ConnectionState.MayBecome, ConnectionState.hasEnded,
        Assigner.connects]
  | _ =>
    cases state <;>
      simp_all [Assigner.Assigns, ConnectionState.MayBecome, ConnectionState.hasEnded,
        Assigner.connects]

theorem Leads.absorbing_iff {history : History} (h : Leads a history b) :
    Absorbing a history ↔ ConnectsInTime a history := by
  have hchain : ∀ l : List ConnectionState,
      l.Pairwise ConnectionState.MayBecome ↔ l.IsChain ConnectionState.MayBecome := by
    intro l
    have : IsTrans ConnectionState ConnectionState.MayBecome := ⟨fun _ _ _ => .trans⟩
    exact List.isChain_iff_pairwise.symm
  induction history generalizing a with
  | nil => simp [Absorbing, states, ConnectsInTime]
  | cons entry history ih =>
    have hrest := ih h.2
    unfold Absorbing states at hrest ⊢
    rw [hchain] at hrest ⊢
    rw [List.map_cons, List.isChain_cons_cons]
    exact and_congr (mayBecome_iff h.1) hrest

end History

namespace Receiver

variable {α τ σ : Type}

/-- The history grows by assignments that lead from one state to the other. -/
def Proceeds (s t : Receiver α (Life τ σ)) : Prop :=
  ∃ added : History, t.rest.history = s.rest.history ++ added ∧
    History.Leads s.keys.state added t.keys.state

variable {s t u : Receiver α (Life τ σ)}

namespace Proceeds

theorem of_same (hstate : t.keys.state = s.keys.state) (hhistory : t.rest.history = s.rest.history) :
    Proceeds s t :=
  ⟨[], by rw [hhistory, List.append_nil], hstate.symm⟩

theorem refl (s : Receiver α (Life τ σ)) : Proceeds s s := of_same rfl rfl

theorem trans (h : Proceeds s t) (hnext : Proceeds t u) : Proceeds s u := by
  obtain ⟨first, hfirst, hleads⟩ := h
  obtain ⟨second, hsecond, hleads'⟩ := hnext
  exact ⟨first ++ second, by rw [hsecond, hfirst, List.append_assoc], hleads.append hleads'⟩

theorem single (assigner : Assigner) (hassigns : assigner.Assigns s.keys.state t.keys.state)
    (hhistory : t.rest.history = s.rest.history ++ [(assigner, t.keys.state)]) : Proceeds s t :=
  ⟨[(assigner, t.keys.state)], hhistory, hassigns, rfl⟩

theorem andThen {r : Except QuicError Unit × Receiver α (Life τ σ)}
    {f : Receiver α (Life τ σ) → Except QuicError Unit × Receiver α (Life τ σ)}
    (h : Proceeds s r.2) (hnext : ∀ t, Proceeds t (f t).2) : Proceeds s (Quic.andThen r f).2 := by
  obtain ⟨_ | _, t⟩ := r
  · exact h
  · exact h.trans (hnext t)

end Proceeds

/-! ## Frames and keys -/

variable (E : LifeEnv α τ σ)

theorem adopt_proceeds (s t : Receiver α (Life τ σ)) : Proceeds s (s.adopt t) := .of_same rfl rfl

theorem perform_proceeds (work : Work α) (s : Receiver α (Life τ σ)) :
    Proceeds s (s.perform E work).2 :=
  adopt_proceeds s _

variable (s : Receiver α (Life τ σ))

theorem enterDrainingNow_proceeds : Proceeds s (s.enterDrainingNow E) := by
  unfold enterDrainingNow
  split
  · exact .refl s
  · next hopen => exact .single .enterDraining ⟨hopen, rfl⟩ rfl

theorem installKeys_proceeds (change : KeyChange) : Proceeds s (s.installKeys change) := by
  refine .single (.installKeys change) ?_ rfl
  cases change <;> rfl

theorem installReported_proceeds : Proceeds s s.installReported := by
  have hfold : ∀ (changes : List KeyChange) (t : Receiver α (Life τ σ)),
      Proceeds t (changes.foldl installKeys t) := by
    intro changes
    induction changes with
    | nil => exact .refl
    | cons change changes ih =>
      intro t
      exact (installKeys_proceeds t change).trans (ih _)
  exact Proceeds.trans (.of_same rfl rfl) (hfold _ _)

theorem processTlsOutput_proceeds : Proceeds s (s.processTlsOutput E).2 := by
  apply Proceeds.trans _ (perform_proceeds E .tlsOutput _)
  apply Proceeds.trans _ (installReported_proceeds _)
  exact .of_same rfl rfl

theorem processCrypto_proceeds (space : PacketNumberSpace)
    (frame : CryptoFrame) : Proceeds s (s.processCrypto E space frame).2 := by
  have h : Proceeds s ((s.setCrypto (processCryptoData E.tls.engine s.rest.crypto space
      frame.offset frame.data).2.1).installReported.perform E .tlsOutput).2 := by
    apply Proceeds.trans _ (perform_proceeds E .tlsOutput _)
    apply Proceeds.trans _ (installReported_proceeds _)
    exact .of_same rfl rfl
  unfold processCrypto
  dsimp only
  split <;> exact h

variable (packet : OpenedPacket) (addr : α)

theorem processFrameFrom_proceeds (frame : Frame) :
    Proceeds s (processFrameFrom E packet addr s frame).2 := by
  unfold processFrameFrom
  split
  · exact .refl s
  · split
    · exact processCrypto_proceeds E s _ _
    · exact enterDrainingNow_proceeds E s
    · split
      · apply Proceeds.trans _ (perform_proceeds E .handshakeDone _)
        exact .single .handshakeDone rfl rfl
      · exact .refl s
    · exact perform_proceeds E _ s

theorem processFrames_proceeds (frames : List Frame) :
    ∀ s : Receiver α (Life τ σ), Proceeds s (processFrames E packet addr s frames).2 := by
  induction frames with
  | nil => exact .refl
  | cons frame frames ih =>
    intro s
    exact (processFrameFrom_proceeds E s packet addr frame).andThen ih

theorem processOpened_proceeds (packet : OpenedPacket) (addr : α)
    (ecn : Option UdpEcnCodepoint) : Proceeds s (processOpened E s packet addr ecn).2 := by
  unfold processOpened
  split
  · apply Proceeds.andThen
    · exact (perform_proceeds E _ s).trans (processFrames_proceeds E packet addr _ _)
    · exact fun t => perform_proceeds E _ t
  · exact .refl s
  · exact .refl s

end Receiver

/-! ## Packets and datagrams -/

theorem KeyState.tryDecryptWithNextKeys_state (P : PacketProtection) (s : KeyState) (pn : Nat)
    (recvKeyPhase : Bool) (header ciphertext : Bytes) :
    (s.tryDecryptWithNextKeys P pn recvKeyPhase header ciphertext).2.state = s.state := by
  unfold tryDecryptWithNextKeys
  split
  · rfl
  · split
    · split <;> rfl
    · split
      · rfl
      · dsimp only
        split <;> rfl

namespace Receiver

variable {α τ σ : Type} [DecidableEq α] (P : PacketProtection) (R : RetryIntegrity)
  (E : LifeEnv α τ σ)

variable (s : Receiver α (Life τ σ))

omit [DecidableEq α] in
theorem processPacket_proceeds (space : PacketNumberSpace)
    (kind : ReceivedPacketKind) (data : Bytes) (addr : α) (ecn : Option UdpEcnCodepoint) :
    Proceeds s (s.processPacket P E.receive space kind data addr ecn).2 := by
  unfold processPacket
  split
  · exact .refl s
  · split
    · exact .refl s
    · exact .refl s
    · split
      · exact .refl s
      · next u _ =>
        have hstate : ∀ packetKey isShortHeader,
            (s.decrypt P packetKey isShortHeader u).2.state = s.keys.state := by
          grind [decrypt, KeyState.tryDecryptWithNextKeys_state]
        unfold afterDecrypt
        split
        · next hdecrypt =>
          exact .of_same ((congrArg (·.2.state) hdecrypt).symm.trans (hstate _ _)) rfl
        · next hdecrypt =>
          apply Proceeds.trans _ (processOpened_proceeds E _ _ addr ecn)
          exact .of_same ((congrArg (·.2.state) hdecrypt).symm.trans (hstate _ _)) rfl

omit [DecidableEq α] in
theorem captureSourceCid_proceeds (h : LongHeader) : Proceeds s (s.captureSourceCid h) := by
  unfold captureSourceCid
  split
  · refine .of_same ?_ rfl
    split <;> rfl
  · exact .refl s

theorem beginPeerPathValidation_proceeds (addr : α) :
    Proceeds s (s.beginPeerPathValidation E.receive addr) := by
  unfold beginPeerPathValidation startPathValidation
  split
  · exact .refl s
  · dsimp only
    split <;> split <;> (try split) <;> exact .of_same rfl rfl

omit [DecidableEq α] in
theorem processRetry_proceeds (data : Bytes) (h : LongHeader) :
    Proceeds s (s.processRetry R E.receive data h).2 := by
  unfold processRetry
  split
  · exact .refl s
  · exact .refl s
  · exact .of_same rfl rfl

theorem processLongPacket_proceeds (space : PacketNumberSpace)
    (kind : ReceivedPacketKind) (remaining : Bytes) (stop : Nat) (addr : α)
    (ecn : Option UdpEcnCodepoint) :
    Proceeds s (s.processLongPacket P E.receive space kind remaining stop addr ecn).2 := by
  have hpacket := processPacket_proceeds P E s space kind (remaining.take stop) addr ecn
  unfold processLongPacket
  split
  · exact .refl s
  · split <;> next hprocess =>
      rw [hprocess] at hpacket
      first
        | exact hpacket.trans (beginPeerPathValidation_proceeds E _ addr)
        | split <;> exact hpacket

theorem processShort_proceeds (remaining : Bytes) (addr : α) (ecn : Option UdpEcnCodepoint) :
    Proceeds s (s.processShort P E.receive remaining addr ecn).2 := by
  have hpacket := processPacket_proceeds P E s .applicationData .oneRtt remaining addr ecn
  unfold processShort
  split
  · next hprocess =>
    rw [hprocess] at hpacket
    have hbegin := hpacket.trans (beginPeerPathValidation_proceeds E _ addr)
    dsimp only
    split
    · exact hbegin.trans (enterDrainingNow_proceeds E _)
    · exact hbegin
  · next hprocess =>
    rw [hprocess] at hpacket
    split
    · exact hpacket.trans (enterDrainingNow_proceeds E _)
    · split <;> exact hpacket

theorem processNext_proceeds (remaining : Bytes) (addr : α) (ecn : Option UdpEcnCodepoint) :
    Proceeds s (s.processNext P R E.receive remaining addr ecn).2 := by
  unfold processNext
  split
  · split
    · exact enterDrainingNow_proceeds E s
    · exact .refl s
  · next h _ =>
    have hcapture := captureSourceCid_proceeds s h
    unfold processLong
    split
    · exact hcapture.trans (processRetry_proceeds R E _ remaining h)
    · split
      · exact hcapture
      · exact hcapture.trans (processLongPacket_proceeds P E _ _ _ remaining _ addr ecn)
  · exact processShort_proceeds P E s remaining addr ecn
  · split <;> exact .refl s

variable (addr : α) (ecn : Option UdpEcnCodepoint)

theorem processPackets_proceeds {fuel : Nat} {s t : Receiver α (Life τ σ)} {remaining : Bytes}
    {result : Except QuicError Unit}
    (h : processPackets P R E.receive addr ecn fuel s remaining = some (result, t)) :
    Proceeds s t := by
  induction fuel generalizing s remaining with
  | zero =>
    cases remaining with
    | nil =>
      cases h
      exact .refl _
    | cons b rest => cases h
  | succ fuel ih =>
    cases remaining with
    | nil =>
      cases h
      exact .refl _
    | cons b rest =>
      have hnext := processNext_proceeds P R E s (b :: rest) addr ecn
      unfold processPackets at h
      split at h <;> next heq =>
        rw [heq] at hnext
        first
          | exact hnext.trans (ih h)
          | (cases h; exact hnext)

theorem processDatagram_proceeds (data : Bytes) (addr : α)
    (ecn : Option UdpEcnCodepoint) : Proceeds s (s.processDatagram P R E data addr ecn).2 := by
  have hcount : Proceeds s
      { s with paths := s.paths.recordUnvalidatedBytesReceived addr data.length } :=
    .of_same rfl rfl
  exact hcount.trans (processPackets_proceeds P R E addr ecn (Option.some_get _).symm)

theorem processQueued_proceeds (queue : List Bytes) :
    ∀ s : Receiver α (Life τ σ), Proceeds s (processQueued P R E queue s).2 := by
  induction queue with
  | nil => exact .refl
  | cons data queue ih =>
    intro s
    apply Proceeds.andThen _ ih
    exact Proceeds.trans (.of_same rfl rfl) (processDatagram_proceeds P R E _ data _ none)

/-! ## Timers and calls -/

omit [DecidableEq α] in
theorem idleTimeout_proceeds {s : Receiver α (Life τ σ)} {now : Nat}
    (h : hasPassed s.idleDeadline now = true) : Proceeds s (s.becomeClosed .idleTimeout) := by
  have hactive : s.idleTimeoutActive = true := by
    unfold idleDeadline at h
    split at h
    · assumption
    · cases h
  have hlive : s.keys.state.hasEnded = false := by
    grind [idleTimeoutActive]
  exact .single .idleTimeout ⟨hlive, rfl⟩ rfl

omit [DecidableEq α] in
theorem closeTimeout_proceeds {s : Receiver α (Life τ σ)} {now : Nat}
    (h : hasPassed s.closeDeadline now = true) : Proceeds s (s.becomeClosed .closeTimeout) := by
  have hclosing : s.keys.state = .closing ∨ s.keys.state = .draining := by
    unfold closeDeadline at h
    split at h
    · next hstate => exact Or.inl hstate
    · next hstate => exact Or.inr hstate
    · cases h
  exact .single .closeTimeout ⟨hclosing, rfl⟩ rfl

omit [DecidableEq α] in
theorem handleInternalTimers_proceeds (now : Nat) : Proceeds s (s.handleInternalTimers E now) := by
  unfold handleInternalTimers
  split
  · next h => exact idleTimeout_proceeds h
  · split
    · next h => exact closeTimeout_proceeds h
    · split
      · exact .refl s
      · exact perform_proceeds E _ s

omit [DecidableEq α] in
theorem flushPendingConnectionClose_proceeds : Proceeds s (s.flushPendingConnectionClose E).2 := by
  unfold flushPendingConnectionClose
  split
  · split
    · exact adopt_proceeds s _
    · exact (adopt_proceeds s _).trans (.of_same rfl rfl)
  · exact .refl s

omit [DecidableEq α] in
theorem close_proceeds (errorCode : Nat) (reason : Bytes) (now : Nat) :
    Proceeds s (s.close E errorCode reason now).2 := by
  unfold close
  split
  · exact .refl s
  · next hlive =>
    dsimp only
    split
    · exact .refl s
    · apply Proceeds.trans _ (flushPendingConnectionClose_proceeds E _)
      apply Proceeds.trans _ (.of_same rfl rfl)
      apply Proceeds.trans _ (perform_proceeds E .clearPending _)
      exact .single .beginLocalClose ⟨by simpa using hlive, rfl⟩ rfl

omit [DecidableEq α] in
theorem flush_proceeds : Proceeds s (s.flush E).2 := by
  unfold flush
  split
  · exact flushPendingConnectionClose_proceeds E s
  · exact flushPendingConnectionClose_proceeds E s
  · exact .refl s
  · exact (processTlsOutput_proceeds E s).andThen fun t => perform_proceeds E .sendPending t

theorem feedDatagramFromWithEcn_proceeds (data : Bytes) (addr : α) (ecn : Option UdpEcnCodepoint) :
    Proceeds s (s.feedDatagramFromWithEcn P R E data addr ecn).2 := by
  unfold feedDatagramFromWithEcn
  split
  · exact .of_same rfl rfl
  · exact .refl s
  · exact .refl s
  · apply (processDatagram_proceeds P R E s data addr ecn).andThen
    intro t
    split
    · exact .refl t
    · exact processTlsOutput_proceeds E t

omit [DecidableEq α] in
theorem pollEnding_proceeds (now : Nat) (input : SocketInput α) :
    Proceeds s (s.pollEnding E now input).2 := by
  unfold pollEnding
  dsimp only
  apply Proceeds.andThen
  · split <;> split <;> (try split) <;> (try split) <;> exact .of_same rfl rfl
  · intro t
    apply (flushPendingConnectionClose_proceeds E t).andThen
    intro u
    split <;> exact handleInternalTimers_proceeds E u now

omit [DecidableEq α] in
theorem afterTimers_proceeds (now : Nat) (closedError : QuicError)
    {go : Receiver α (Life τ σ) → Except QuicError Unit × Receiver α (Life τ σ)}
    (hgo : ∀ t, Proceeds t (go t).2) : Proceeds s (s.afterTimers E now closedError go).2 := by
  have htimers := handleInternalTimers_proceeds E s now
  unfold afterTimers
  dsimp only
  split
  · exact htimers
  · exact htimers.trans (flushPendingConnectionClose_proceeds E _)
  · exact htimers.trans (flushPendingConnectionClose_proceeds E _)
  · exact htimers.trans (hgo _)

theorem pollSocket_proceeds (input : SocketInput α) : Proceeds s (s.pollSocket P R E input).2 := by
  unfold pollSocket
  split
  · exact .refl s
  · split
    · exact processDatagram_proceeds P R E s _ _ _
    all_goals exact .refl s

theorem pollWithTimeout_proceeds (entry queued last : Nat) (input : SocketInput α) :
    Proceeds s (s.pollWithTimeout P R E entry queued last input).2 := by
  have hsend : ∀ t : Receiver α (Life τ σ), Proceeds t (t.perform E .sendPending).2 :=
    perform_proceeds E .sendPending
  unfold pollWithTimeout
  split
  · exact .refl s
  · split
    · next h => exact idleTimeout_proceeds h
    · split
      · exact pollEnding_proceeds E s last input
      · refine (processQueued_proceeds P R E _ s).andThen fun s => ?_
        refine afterTimers_proceeds E s queued _ fun s => ?_
        refine (processTlsOutput_proceeds E s).andThen fun s => (hsend s).andThen fun s => ?_
        refine (pollSocket_proceeds P R E s input).andThen fun s => ?_
        refine afterTimers_proceeds E s last _ fun s => ?_
        refine (processTlsOutput_proceeds E s).andThen fun s => (hsend s).andThen fun s => ?_
        exact perform_proceeds E .gcClosedStreams s

theorem lifeStep_proceeds {s t : Receiver α (Life τ σ)} {e : LifeEvent α τ σ}
    {result : Except QuicError Unit} (h : s.lifeStep P R E e = some (result, t)) :
    Proceeds s t := by
  cases e with
  | poll entry queued last input =>
    have hpoll := pollWithTimeout_proceeds P R E s entry queued last input
    rwa [Option.some.inj h] at hpoll
  | feedDatagram data addr ecn =>
    have hfeed := feedDatagramFromWithEcn_proceeds P R E s data addr ecn
    rwa [Option.some.inj h] at hfeed
  | enqueueDatagram data =>
    cases h
    exact .of_same rfl rfl
  | flush =>
    have hflush := flush_proceeds E s
    rwa [Option.some.inj h] at hflush
  | close errorCode reason now =>
    have hclose := close_proceeds E s errorCode reason now
    rwa [Option.some.inj h] at hclose
  | timers now =>
    cases h
    exact handleInternalTimers_proceeds E s now
  | call effect =>
    cases h
    exact adopt_proceeds s _

/-! ## Whole runs -/

/-- The connection has just been created. -/
def IsNew (s : Receiver α (Life τ σ)) : Prop := s.keys.state = .initial ∧ s.rest.history = []

/-- Along every run of datagrams, calls and timers the states of a connection, listed from the
first to the present one, go only forward once it closes or drains, exactly if HANDSHAKE_DONE
and 1-RTT keys never come to a connection that is closing, draining or closed. -/
theorem closing_absorbing_iff {s t : Receiver α (Life τ σ)}
    {tr : List (LifeEvent α τ σ × Except QuicError Unit)} (hnew : s.IsNew)
    (hrun : Run (lifeStep P R E) (fun _ _ => True) s tr t) :
    (History.states .initial t.rest.history).getLast (List.cons_ne_nil _ _) = t.keys.state ∧
    (History.Absorbing .initial t.rest.history ↔
      History.ConnectsInTime .initial t.rest.history) := by
  have hproceeds : Proceeds s t := by
    apply hrun.invariant (I := fun _ t => Proceeds s t) (.refl s)
    intro _ _ _ _ _ h _ hstep
    exact h.trans (lifeStep_proceeds P R E hstep)
  obtain ⟨added, hhistory, hleads⟩ := hproceeds
  rw [hnew.2, List.nil_append] at hhistory
  rw [hnew.1] at hleads
  subst hhistory
  exact ⟨hleads.getLast, hleads.absorbing_iff⟩

/-! ## HANDSHAKE_DONE behind CONNECTION_CLOSE -/

/-- A TLS session that reports the key changes it holds; nothing else is done. -/
def idleEnv : LifeEnv Bool (List KeyChange) Unit where
  tls :=
    { readHs := fun tls _ => .ok tls
      writeHs := fun tls => (tls, [])
      applyPeerTransportParameters := fun tls => (.ok (), tls) }
  perform _ s := (.ok (), s)
  sendConnectionCloseFrames _ s := (.ok true, s)
  now _ := 0
  ptoTimeout _ := 1
  afterRetry := id
  challenge _ := List.replicate 8 0
  frameDebug _ := "HandshakeDone"

def newClient : Receiver Bool (Life (List KeyChange) Unit) where
  keys := .newClient KeyState.serverCid
  paths := ⟨.client, false, 0, 0, true, fun _ => none⟩
  peerInitialSourceConnectionId := none
  largestRecvPn _ := 0
  cidLen := 8
  peerStatelessResetTokens := []
  peerDisableActiveMigration := false
  pendingPeerPathValidation := none
  pendingTargetedFrames := []
  rest := {
    endpointManaged := true
    idleTimeout := 0
    idleTimeoutStart := 0
    crypto := .new ([.handshake 0, .oneRtt 0], [])
    other := () }

def shortPacket (pn : UInt8) (payload : Bytes) : Bytes :=
  0x40 :: KeyState.clientCid.bytes ++ [pn] ++ payload ++ List.replicate 16 0

def feedShort (pn : UInt8) (payload : Bytes) : LifeEvent Bool (List KeyChange) Unit :=
  .feedDatagram (shortPacket pn payload) false none

/-- CONNECTION_CLOSE in one datagram and HANDSHAKE_DONE in the next. -/
theorem closed_before_handshakeDone :
    ∃ tr t, Run (lifeStep KeyState.plainProtection KeyState.zeroTag idleEnv) (fun _ _ => True)
      newClient tr t ∧ t.rest.history ≠ [] ∧ t.keys.state = .draining ∧
      History.Absorbing .initial t.rest.history := by
  have hnil : Run (lifeStep KeyState.plainProtection KeyState.zeroTag idleEnv) (fun _ _ => True)
    newClient [] newClient := .nil
  have hrun := ((hnil.push .flush rfl trivial).push (feedShort 0 [0x1c, 0, 0, 0]) rfl trivial).push
    (feedShort 1 [0x1e, 0, 0, 0]) rfl trivial
  refine ⟨_, _, hrun, by decide +kernel, by decide +kernel, ?_⟩
  exact (closing_absorbing_iff _ _ _ ⟨rfl, rfl⟩ hrun).2.mpr (by decide +kernel)

/-- CONNECTION_CLOSE and HANDSHAKE_DONE in one packet: the connection drains and is connected
again. -/
theorem handshakeDone_after_close :
    ∃ tr t, Run (lifeStep KeyState.plainProtection KeyState.zeroTag idleEnv) (fun _ _ => True)
      newClient tr t ∧
      tr.map Prod.snd = [.ok (), .ok ()] ∧
      History.states .initial t.rest.history =
        [.initial, .handshake, .connected, .draining, .connected] ∧
      t.keys.state = .connected ∧ ¬ History.Absorbing .initial t.rest.history := by
  have hnil : Run (lifeStep KeyState.plainProtection KeyState.zeroTag idleEnv) (fun _ _ => True)
    newClient [] newClient := .nil
  have hrun := (hnil.push .flush rfl trivial).push (feedShort 0 [0x1c, 0, 0, 0, 0x1e]) rfl trivial
  refine ⟨_, _, hrun, by decide +kernel, by decide +kernel, by decide +kernel, ?_⟩
  unfold History.Absorbing
  decide +kernel

end Receiver

end Starfish.Quic
