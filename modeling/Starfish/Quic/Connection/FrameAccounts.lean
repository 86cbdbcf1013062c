import Starfish.Quic.Connection.InFlight

/-!
# Frames of one packet

The frames of a tracked packet wait in `sent_frames` while loss detection tracks
the packet. This module follows one packet number of the ApplicationData space
through every operation: its frames stay or leave by a move, and they leave
together with the packet's entry in loss detection.
-/

namespace Starfish.Quic

universe u v w

def appMoves (pn : Nat) (moves : List Move) : List Move :=
  moves.filter fun m => decide (m.space = .applicationData ∧ m.pn = pn)

@[simp] theorem appMoves_nil (pn : Nat) : appMoves pn [] = [] := rfl

@[simp] theorem appMoves_append (pn : Nat) (moves moves' : List Move) :
    appMoves pn (moves ++ moves') = appMoves pn moves ++ appMoves pn moves' := by
  simp [appMoves]

def appFrames (queue : List (PacketNumberSpace × Frame)) : List Frame :=
  (queue.filter fun x => decide (x.1 = PacketNumberSpace.applicationData)).map Prod.snd

@[simp] theorem appFrames_append (queue queue' : List (PacketNumberSpace × Frame)) :
    appFrames (queue ++ queue') = appFrames queue ++ appFrames queue' := by
  simp [appFrames]

theorem appFrames_retransmittable (space : PacketNumberSpace) (frames : List Frame) :
    appFrames (retransmittable space frames) =
      if space = .applicationData then frames.filter Frame.isRetransmittable else [] := by
  unfold appFrames retransmittable
  split
  · next h => simp [h, List.filter_map]
  · next h => simp [h, List.filter_map]

/-- What a move puts into the queue of the ApplicationData space. -/
def Move.requeuedFrames (m : Move) : List Frame :=
  if m.space = .applicationData ∧ m.fate = .requeued then m.frames.filter Frame.isRetransmittable
  else []

namespace RecoveryState

variable {γ : Type u}

def held (s : RecoveryState γ) (pn : Nat) : List (List Frame) :=
  ((s.sentFrames .applicationData).find? pn).toList

def tracks (s : RecoveryState γ) (pn : Nat) : Bool :=
  ((s.tracked .applicationData).find? pn).isSome

theorem held_congr {s s' : RecoveryState γ} (h : s'.sentFrames = s.sentFrames) (pn : Nat) :
    s'.held pn = s.held pn := by
  unfold held
  rw [h]

theorem tracks_congr {s s' : RecoveryState γ} (h : s'.lossDetection = s.lossDetection) (pn : Nat) :
    s'.tracks pn = s.tracks pn := by
  unfold tracks tracked
  rw [h]

def NotProbe (s : RecoveryState γ) (pn : Nat) : Prop :=
  ∀ probe, s.pathMtu.inFlightProbe = some probe → probe.pn ≠ pn

/-- Tracked packets are stored under their own number. -/
def WellKeyed (s : RecoveryState γ) : Prop :=
  ∀ e ∈ (s.tracked .applicationData).entries, e.2.pn = e.1

end RecoveryState

/-! ## Accounts of one packet -/

/-- An operation from `s` to `s'` accounts for packet `pn`: its frames are kept or
moved, everything that is queued comes from a move, and a packet that is no probe meets
only the given fate. -/
structure Accounts {γ : Type u} (fate : Fate) (pn : Nat) (s s' : RecoveryState γ)
    (moves : List Move) : Prop where
  held : (appMoves pn moves).map Move.frames ++ s'.held pn = s.held pn
  queued : appFrames s'.pendingFrames =
    appFrames s.pendingFrames ++ moves.flatMap Move.requeuedFrames
  fates : s.NotProbe pn → s'.NotProbe pn ∧ ∀ m ∈ appMoves pn moves, m.fate = fate

namespace Accounts

variable {γ : Type u} {fate : Fate} {pn : Nat} {s s' s'' : RecoveryState γ}
  {moves moves' : List Move}

theorem trans (h : Accounts fate pn s s' moves) (h' : Accounts fate pn s' s'' moves') :
    Accounts fate pn s s'' (moves ++ moves') where
  held := by rw [appMoves_append, List.map_append, List.append_assoc, h'.held, h.held]
  queued := by rw [h'.queued, h.queued, List.flatMap_append, List.append_assoc]
  fates := fun hnot => by
    grind [cases Accounts, appMoves_append]

/-- Operations that neither touch `sent_frames` nor queue frames nor start a probe. -/
theorem of_same (hsent : s'.sentFrames = s.sentFrames)
    (hpending : appFrames s'.pendingFrames = appFrames s.pendingFrames)
    (hprobe : s.NotProbe pn → s'.NotProbe pn) : Accounts fate pn s s' [] where
  held := by simp [RecoveryState.held, hsent]
  queued := by simp [hpending]
  fates := fun hnot => ⟨hprobe hnot, fun _ hm => (nomatch hm)⟩

theorem refl (fate : Fate) (pn : Nat) (s : RecoveryState γ) : Accounts fate pn s s [] :=
  of_same rfl rfl id

theorem after (h : Accounts fate pn s s' []) (h' : Accounts fate pn s' s'' moves) :
    Accounts fate pn s s'' moves := h.trans h'

theorem andThen (h : Accounts fate pn s s' moves) (h' : Accounts fate pn s' s'' []) :
    Accounts fate pn s s'' moves := by
  have htrans := h.trans h'
  rwa [List.append_nil] at htrans

theorem appMoves_eq_nil (h : Accounts fate pn s s' moves) (hheld : s'.held pn = s.held pn) :
    appMoves pn moves = [] := by
  have hmoved := h.held
  simp_all

theorem forEach {σ : Type v} {α : Type w} {f : σ → α → σ × List Move} (view : σ → RecoveryState γ)
    (hf : ∀ x a, Accounts fate pn (view x) (view (f x a).1) (f x a).2) (x : σ) (l : List α) :
    Accounts fate pn (view x) (view (Quic.forEach f x l).1) (Quic.forEach f x l).2 := by
  induction l generalizing x with
  | nil => exact refl fate pn _
  | cons a rest ih => exact (hf x a).trans (ih (f x a).1)

end Accounts

/-- The frames of a packet and its entry in loss detection are kept or removed together. -/
def InStep {γ : Type u} (pn : Nat) (s s' : RecoveryState γ) : Prop :=
  (s'.held pn = s.held pn ∧ s'.tracks pn = s.tracks pn) ∨ (s'.held pn = [] ∧ s'.tracks pn = false)

namespace InStep

variable {γ : Type u} {pn : Nat} {s s' s'' : RecoveryState γ}

theorem trans (h : InStep pn s s') (h' : InStep pn s' s'') : InStep pn s s'' := by
  grind [InStep]

theorem of_same (hsent : s'.sentFrames = s.sentFrames) (hld : s'.lossDetection = s.lossDetection) :
    InStep pn s s' :=
  Or.inl ⟨RecoveryState.held_congr hsent pn, RecoveryState.tracks_congr hld pn⟩

theorem refl (pn : Nat) (s : RecoveryState γ) : InStep pn s s := of_same rfl rfl

/-- An operation that removes the packets that satisfy `p`. -/
theorem of_removed {p : Prop} [Decidable p] (hheld : s'.held pn = if p then [] else s.held pn)
    (htracks : s'.tracks pn = if p then false else s.tracks pn) : InStep pn s s' := by
  by_cases hp : p
  · rw [if_pos hp] at hheld htracks
    exact Or.inr ⟨hheld, htracks⟩
  · rw [if_neg hp] at hheld htracks
    exact Or.inl ⟨hheld, htracks⟩

theorem forEach {σ : Type v} {α : Type w} {f : σ → α → σ × List Move} (view : σ → RecoveryState γ)
    (hf : ∀ x a, InStep pn (view x) (view (f x a).1)) (x : σ) (l : List α) :
    InStep pn (view x) (view (Quic.forEach f x l).1) := by
  induction l generalizing x with
  | nil => exact refl pn _
  | cons a rest ih => exact (hf x a).trans (ih (f x a).1)

end InStep

namespace RecoveryState

variable {γ : Type u}

/-! ## Single packets -/

theorem takeFrames_held (fate : Fate) (space : PacketNumberSpace) (s : RecoveryState γ)
    (p pn : Nat) :
    (takeFrames fate space s p).1.held pn =
      if space = .applicationData ∧ p = pn then [] else s.held pn := by
  unfold held
  rw [takeFrames_sentFrames]
  by_cases hspace : space = .applicationData
  · subst hspace
    by_cases hp : p = pn
    · simp [hp, OrdMap.find?_erase]
    · simp [hp, OrdMap.find?_erase, Ne.symm hp]
  · simp [hspace, Ne.symm hspace]

theorem takeFrames_appMoves (fate : Fate) (space : PacketNumberSpace) (s : RecoveryState γ)
    (p pn : Nat) :
    appMoves pn (takeFrames fate space s p).2 =
      if space = .applicationData ∧ p = pn then
        (s.held pn).map fun frames => ⟨.applicationData, pn, frames, fate⟩
      else [] := by
  by_cases hpn : space = .applicationData ∧ p = pn
  · grind [takeFrames, held, appMoves]
  · rw [if_neg hpn]
    unfold takeFrames
    split
    · rfl
    · simp [appMoves, hpn]

theorem takeFrames_queued (fate : Fate) (space : PacketNumberSpace) (s : RecoveryState γ)
    (p : Nat) :
    appFrames (takeFrames fate space s p).1.pendingFrames =
      appFrames s.pendingFrames ++
        (takeFrames fate space s p).2.flatMap Move.requeuedFrames := by
  grind [takeFrames, pushFrames, setSentFrames, Move.requeuedFrames, appFrames_retransmittable,
    appFrames]

theorem takeFrames_accounts (fate fate' : Fate) (space : PacketNumberSpace) (s : RecoveryState γ)
    (p pn : Nat) (hfate : space = .applicationData → p = pn → fate' = fate) :
    Accounts fate pn s (takeFrames fate' space s p).1 (takeFrames fate' space s p).2 where
  held := by
    rw [takeFrames_held, takeFrames_appMoves]
    split <;> simp [Function.comp_def]
  queued := takeFrames_queued fate' space s p
  fates := fun hnot => by
    refine ⟨fun probe hprobe => hnot probe (by simpa using hprobe), fun m hm => ?_⟩
    grind [takeFrames_appMoves]

theorem removeSentPacket_find? (ld : LossDetection) (space : PacketNumberSpace) (p pn : Nat) :
    (((ld.removeSentPacket space p).2.spaces .applicationData).sentPackets.find? pn) =
      if space = .applicationData ∧ p = pn then none
      else (ld.spaces .applicationData).sentPackets.find? pn := by
  unfold LossDetection.removeSentPacket
  by_cases hspace : space = .applicationData
  · subst hspace
    rw [LossDetection.setSpace_self, OrdMap.find?_erase]
    simp [eq_comm]
  · rw [LossDetection.setSpace_of_ne ld _ (Ne.symm hspace)]
    simp [hspace]

theorem discardTracked_tracks (s : RecoveryState γ) (space : PacketNumberSpace) (p pn : Nat) :
    (s.discardTracked space p).tracks pn =
      if space = .applicationData ∧ p = pn then false else s.tracks pn := by
  unfold tracks tracked
  rw [discardTracked_lossDetection, removeSentPacket_find?]
  split <;> rfl

variable (alg : CongestionAlgorithm γ)

theorem loseTracked_tracks (s : RecoveryState γ) (space : PacketNumberSpace) (p pn now : Nat) :
    (s.loseTracked alg space p now).tracks pn =
      if space = .applicationData ∧ p = pn then false else s.tracks pn := by
  grind [loseTracked, tracks, tracked, removeSentPacket_find?]

theorem takeFrames_tracks (fate : Fate) (space : PacketNumberSpace) (s : RecoveryState γ)
    (p pn : Nat) : (takeFrames fate space s p).1.tracks pn = s.tracks pn :=
  tracks_congr (takeFrames_lossDetection ..) pn

theorem discardTracked_held (s : RecoveryState γ) (space : PacketNumberSpace) (p pn : Nat) :
    (s.discardTracked space p).held pn = s.held pn :=
  held_congr (discardTracked_sentFrames ..) pn

theorem loseTracked_held (s : RecoveryState γ) (space : PacketNumberSpace) (p pn now : Nat) :
    (s.loseTracked alg space p now).held pn = s.held pn := by
  unfold loseTracked
  split <;> rfl

theorem discardTracked_accounts (fate : Fate) (s : RecoveryState γ) (space : PacketNumberSpace)
    (p pn : Nat) : Accounts fate pn s (s.discardTracked space p) [] :=
  .of_same (by simp) (by simp) fun hnot probe hprobe => hnot probe (by simpa using hprobe)

theorem loseTracked_accounts (fate : Fate) (s : RecoveryState γ) (space : PacketNumberSpace)
    (p pn now : Nat) :
    Accounts fate pn s (s.loseTracked alg space p now) [] := by
  unfold loseTracked
  split <;> exact .of_same rfl rfl id

/-! ## Probes -/

theorem pn_eq_of_probeWith {s : RecoveryState γ} {p : Nat} {probe : PathMtuProbe}
    (h : s.probeWith p = some probe) : s.pathMtu.inFlightProbe = some probe ∧ probe.pn = p := by
  grind [probeWith]

theorem dropProbe_accounts (fate : Fate) (pn : Nat) {s : RecoveryState γ} {p : Nat}
    {probe : PathMtuProbe}
    (h : s.probeWith p = some probe) :
    Accounts fate pn s (takeFrames .dropped .applicationData s.clearProbe p).1
      (takeFrames .dropped .applicationData s.clearProbe p).2 := by
  have htaken := takeFrames_accounts .dropped .dropped .applicationData s.clearProbe p pn
    fun _ _ => rfl
  refine ⟨htaken.held, htaken.queued, fun hnot => ?_⟩
  obtain ⟨hprobe, rfl⟩ := pn_eq_of_probeWith h
  refine ⟨(htaken.fates (by nofun)).1, fun m hm => ?_⟩
  rw [takeFrames_appMoves, if_neg fun heq => hnot probe hprobe heq.2] at hm
  cases hm

theorem completePathMtuProbeSuccess_accounts (fate : Fate) (s : RecoveryState γ) (p pn now : Nat) :
    Accounts fate pn s (s.completePathMtuProbeSuccess p now) [] := by
  unfold completePathMtuProbeSuccess
  split
  · exact .refl fate pn s
  · exact .of_same rfl rfl fun _ => by nofun

theorem completePathMtuProbeFailure_accounts (fate : Fate) (s : RecoveryState γ) (p pn now : Nat) :
    Accounts fate pn s (s.completePathMtuProbeFailure alg p now).1
      (s.completePathMtuProbeFailure alg p now).2 := by
  unfold completePathMtuProbeFailure
  split
  · exact .refl fate pn s
  · next probe hprobe =>
    have hnext : ∀ t : RecoveryState γ, Accounts fate pn t
        ((t.lowerProbeBound probe.size).scheduleNextPathMtuProbe now) [] :=
      fun t => .of_same rfl rfl id
    exact ((dropProbe_accounts fate pn hprobe).andThen
      (loseTracked_accounts alg fate _ .applicationData p pn now)).andThen (hnext _)

theorem abandonPathMtuProbe_accounts (fate : Fate) (s : RecoveryState γ) (p pn : Nat) :
    Accounts fate pn s (s.abandonPathMtuProbe p).1 (s.abandonPathMtuProbe p).2 := by
  unfold abandonPathMtuProbe
  split
  · exact .refl fate pn s
  · next probe hprobe =>
    exact (dropProbe_accounts fate pn hprobe).andThen (discardTracked_accounts fate _ _ p pn)

theorem completePathMtuProbeFailure_inStep (s : RecoveryState γ) (p pn now : Nat) :
    InStep pn s (s.completePathMtuProbeFailure alg p now).1 := by
  unfold completePathMtuProbeFailure
  split
  · exact .refl pn s
  · have hclear : InStep pn s s.clearProbe := .of_same rfl rfl
    have hlost : InStep pn s.clearProbe
        ((takeFrames .dropped .applicationData s.clearProbe p).1.loseTracked alg .applicationData p
          now) := by
      apply InStep.of_removed (p := PacketNumberSpace.applicationData = .applicationData ∧ p = pn)
      · rw [loseTracked_held, takeFrames_held]
      · rw [loseTracked_tracks, takeFrames_tracks]
    have hnext : ∀ (t : RecoveryState γ) (size : Nat),
        InStep pn t ((t.lowerProbeBound size).scheduleNextPathMtuProbe now) :=
      fun t size => .of_same rfl rfl
    exact (hclear.trans hlost).trans (hnext _ _)

theorem abandonPathMtuProbe_inStep (s : RecoveryState γ) (p pn : Nat) :
    InStep pn s (s.abandonPathMtuProbe p).1 := by
  unfold abandonPathMtuProbe
  split
  · exact .refl pn s
  · have hclear : InStep pn s s.clearProbe := .of_same rfl rfl
    apply hclear.trans
    apply InStep.of_removed (p := PacketNumberSpace.applicationData = .applicationData ∧ p = pn)
    · rw [discardTracked_held, takeFrames_held]
    · rw [discardTracked_tracks, takeFrames_tracks]

theorem abandonOversizedProbe_accounts (fate : Fate) (s : RecoveryState γ) (pn : Nat) :
    Accounts fate pn s s.abandonOversizedProbe.1 s.abandonOversizedProbe.2 := by
  unfold abandonOversizedProbe
  split
  · split
    · exact abandonPathMtuProbe_accounts fate s _ pn
    · exact .refl fate pn s
  · exact .refl fate pn s

theorem abandonOversizedProbe_inStep (s : RecoveryState γ) (pn : Nat) :
    InStep pn s s.abandonOversizedProbe.1 := by
  unfold abandonOversizedProbe
  split
  · split
    · exact abandonPathMtuProbe_inStep s _ pn
    · exact .refl pn s
  · exact .refl pn s

theorem applyPeerMaxUdpPayloadSize_accounts (fate : Fate) (s : RecoveryState γ)
    (pn peerMax now : Nat) :
    Accounts fate pn s (s.applyPeerMaxUdpPayloadSize peerMax now).1
      (s.applyPeerMaxUdpPayloadSize peerMax now).2 := by
  have hlimit : Accounts fate pn s (s.limitDatagrams peerMax) [] := .of_same rfl rfl id
  have hprobe : ∀ t : RecoveryState γ, Accounts fate pn t (t.probeIfRoom now) [] :=
    fun t => .of_same rfl rfl id
  exact (hlimit.after (abandonOversizedProbe_accounts fate _ pn)).andThen (hprobe _)

theorem applyPeerMaxUdpPayloadSize_inStep (s : RecoveryState γ) (pn peerMax now : Nat) :
    InStep pn s (s.applyPeerMaxUdpPayloadSize peerMax now).1 := by
  have hlimit : InStep pn s (s.limitDatagrams peerMax) := .of_same rfl rfl
  have hprobe : ∀ t : RecoveryState γ, InStep pn t (t.probeIfRoom now) := fun t => .of_same rfl rfl
  exact (hlimit.trans (abandonOversizedProbe_inStep _ pn)).trans (hprobe _)

/-! ## ACK frames -/

theorem ackedPacket_accounts (space : PacketNumberSpace) (rtt now pn : Nat)
    (x : RecoveryState γ × Nat) (pkt : SentPacket) :
    Accounts .released pn x.1 (ackedPacket alg space rtt now x pkt).1.1
      (ackedPacket alg space rtt now x pkt).2 := by
  have hforget : Accounts .released pn x.1 (x.1.forgetZeroRtt pkt.pn) [] := .of_same rfl rfl id
  unfold ackedPacket
  refine Accounts.after ?_ (takeFrames_accounts _ _ _ _ _ _ fun _ _ => rfl)
  split
  · exact (hforget.after (completePathMtuProbeSuccess_accounts _ _ _ pn now)).andThen
      (.of_same rfl rfl id)
  · exact hforget.andThen (.of_same rfl rfl id)

theorem lostPacket_accounts (space : PacketNumberSpace) (now pn : Nat) (s : RecoveryState γ)
    (pkt : SentPacket) :
    Accounts .requeued pn s (lostPacket alg space now s pkt).1
      (lostPacket alg space now s pkt).2 := by
  have hforget : Accounts .requeued pn s (s.forgetZeroRtt pkt.pn) [] := .of_same rfl rfl id
  unfold lostPacket
  refine Accounts.trans ?_ (takeFrames_accounts _ _ _ _ _ _ fun _ _ => rfl)
  split
  · exact (hforget.after (completePathMtuProbeFailure_accounts alg _ _ _ pn now)).andThen
      (.of_same rfl rfl id)
  · exact hforget.andThen (.of_same rfl rfl id)

theorem ackedPacket_held (space : PacketNumberSpace) (rtt now pn : Nat) (x : RecoveryState γ × Nat)
    (pkt : SentPacket) :
    (ackedPacket alg space rtt now x pkt).1.1.held pn =
      if space = .applicationData ∧ pkt.pn = pn then [] else x.1.held pn := by
  unfold ackedPacket
  rw [takeFrames_held]
  split
  · rfl
  · split
    · unfold completePathMtuProbeSuccess
      split <;> rfl
    · rfl

theorem ackedPacket_tracks (space : PacketNumberSpace) (rtt now pn : Nat)
    (x : RecoveryState γ × Nat) (pkt : SentPacket) :
    (ackedPacket alg space rtt now x pkt).1.1.tracks pn = x.1.tracks pn := by
  unfold ackedPacket
  rw [takeFrames_tracks]
  split
  · unfold completePathMtuProbeSuccess
    split <;> rfl
  · rfl

theorem completePathMtuProbeFailure_other {s : RecoveryState γ} (p : Nat) {pn : Nat} (now : Nat)
    (hnot : s.NotProbe pn) :
    (s.completePathMtuProbeFailure alg p now).1.held pn = s.held pn ∧
      (s.completePathMtuProbeFailure alg p now).1.tracks pn = s.tracks pn := by
  unfold completePathMtuProbeFailure
  split
  · exact ⟨rfl, rfl⟩
  · next probe hprobe =>
    obtain ⟨hflight, rfl⟩ := pn_eq_of_probeWith hprobe
    have hne : ¬ (PacketNumberSpace.applicationData = .applicationData ∧ probe.pn = pn) :=
      fun heq => hnot probe hflight heq.2
    have hheld := loseTracked_held alg (takeFrames .dropped .applicationData s.clearProbe probe.pn).1
      .applicationData probe.pn pn now
    have htracks := loseTracked_tracks alg
      (takeFrames .dropped .applicationData s.clearProbe probe.pn).1 .applicationData probe.pn pn now
    rw [takeFrames_held, if_neg hne] at hheld
    rw [takeFrames_tracks, if_neg hne] at htracks
    have hnext : ∀ (t : RecoveryState γ) (size : Nat),
        ((t.lowerProbeBound size).scheduleNextPathMtuProbe now).held pn = t.held pn ∧
          ((t.lowerProbeBound size).scheduleNextPathMtuProbe now).tracks pn = t.tracks pn :=
      fun t size => ⟨rfl, rfl⟩
    exact ⟨(hnext _ _).1.trans hheld, (hnext _ _).2.trans htracks⟩

theorem lostPacket_held (space : PacketNumberSpace) (now : Nat) {pn : Nat} {s : RecoveryState γ}
    (pkt : SentPacket) (hnot : s.NotProbe pn) :
    (lostPacket alg space now s pkt).1.held pn =
      if space = .applicationData ∧ pkt.pn = pn then [] else s.held pn := by
  unfold lostPacket
  rw [takeFrames_held]
  split
  · rfl
  · split
    · exact (completePathMtuProbeFailure_other alg pkt.pn now
        (show (s.forgetZeroRtt pkt.pn).NotProbe pn from hnot)).1
    · rfl

theorem lostPacket_tracks (space : PacketNumberSpace) (now : Nat) {pn : Nat} {s : RecoveryState γ}
    (pkt : SentPacket) (hnot : s.NotProbe pn) :
    (lostPacket alg space now s pkt).1.tracks pn = s.tracks pn := by
  unfold lostPacket
  rw [takeFrames_tracks]
  split
  · exact (completePathMtuProbeFailure_other alg pkt.pn now
      (show (s.forgetZeroRtt pkt.pn).NotProbe pn from hnot)).2
  · rfl

section Loops

variable {σ : Type v} {α : Type w} {f : σ → α → σ × List Move} {fate : Fate} {pn : Nat}
  (view : σ → RecoveryState γ)
  (haccounts : ∀ x a, Accounts fate pn (view x) (view (f x a).1) (f x a).2)

include haccounts

/-- A loop that takes out the frames of the packets that satisfy `p`: the frames of `pn`
are gone if one of them does, and kept otherwise. -/
theorem forEach_held (p : α → Bool)
    (hheld : ∀ x a, (view x).NotProbe pn →
      (view (f x a).1).held pn = if p a then [] else (view x).held pn)
    (x : σ) (hx : (view x).NotProbe pn) (l : List α) :
    (view (forEach f x l).1).held pn = if l.any p then [] else (view x).held pn := by
  induction l generalizing x with
  | nil => rfl
  | cons a rest ih =>
    apply (ih (f x a).1 ((haccounts x a).fates hx).1).trans
    rw [hheld x a hx, List.any_cons]
    cases p a <;> simp

theorem forEach_tracks
    (htracks : ∀ x a, (view x).NotProbe pn → (view (f x a).1).tracks pn = (view x).tracks pn)
    (x : σ) (hx : (view x).NotProbe pn) (l : List α) :
    (view (forEach f x l).1).tracks pn = (view x).tracks pn := by
  induction l generalizing x with
  | nil => rfl
  | cons a rest ih =>
    exact (ih (f x a).1 ((haccounts x a).fates hx).1).trans (htracks x a hx)

end Loops

/-! ## 0-RTT, discarded spaces, Retry and migration -/

theorem requeueZeroRttPacket_accounts (pn : Nat) (s : RecoveryState γ) (p : Nat) :
    Accounts .requeued pn s (s.requeueZeroRttPacket p).1 (s.requeueZeroRttPacket p).2 :=
  ((discardTracked_accounts .requeued s .applicationData p pn).after
    (takeFrames_accounts _ .requeued _ _ p pn fun _ _ => rfl)).andThen (.of_same rfl rfl id)

theorem requeueZeroRttPacket_inStep (pn : Nat) (s : RecoveryState γ) (p : Nat) :
    InStep pn s (s.requeueZeroRttPacket p).1 := by
  have hremoved : InStep pn s
      (takeFrames .requeued .applicationData (s.discardTracked .applicationData p) p).1 := by
    apply InStep.of_removed (p := PacketNumberSpace.applicationData = .applicationData ∧ p = pn)
    · rw [takeFrames_held, discardTracked_held]
    · rw [takeFrames_tracks, discardTracked_tracks]
  exact hremoved.trans (.of_same rfl rfl)

theorem requeueZeroRttInFlight_accounts (pn : Nat) (s : RecoveryState γ) :
    Accounts .requeued pn s s.requeueZeroRttInFlight.1 s.requeueZeroRttInFlight.2 :=
  Accounts.forEach id (requeueZeroRttPacket_accounts pn) s s.zeroRttInFlight.keys

theorem requeueZeroRttInFlight_inStep (pn : Nat) (s : RecoveryState γ) :
    InStep pn s s.requeueZeroRttInFlight.1 :=
  InStep.forEach id (requeueZeroRttPacket_inStep pn) s s.zeroRttInFlight.keys

section ClearSpace

variable (fate : Fate) (space : PacketNumberSpace) (s : RecoveryState γ) (pn : Nat)

theorem clearSpace_accounts {fate' : Fate} (hfate : space = .applicationData → fate' = fate) :
    Accounts fate pn s
      (forEach (takeFrames fate' space) (s.discardAllTracked space) (s.sentFrames space).keys).1
      (forEach (takeFrames fate' space) (s.discardAllTracked space) (s.sentFrames space).keys).2 := by
  have hall : Accounts fate pn s (s.discardAllTracked space) [] := .of_same rfl rfl id
  exact hall.after (Accounts.forEach id
    (fun x p => takeFrames_accounts fate fate' space x p pn fun h _ => hfate h) _ _)

theorem discardAllTracked_tracks :
    (s.discardAllTracked space).tracks pn =
      if space = .applicationData then false else s.tracks pn := by
  unfold tracks tracked discardAllTracked LossDetection.takeSentPackets
  by_cases hspace : space = .applicationData
  · subst hspace
    rfl
  · rw [LossDetection.setSpace_of_ne _ _ (Ne.symm hspace), if_neg hspace]

theorem clearSpace_held (hnot : s.NotProbe pn) :
    let res := forEach (takeFrames fate space) (s.discardAllTracked space) (s.sentFrames space).keys
    res.1.held pn = (if space = .applicationData then [] else s.held pn) ∧
      res.1.tracks pn = if space = .applicationData then false else s.tracks pn := by
  have haccounts : ∀ (x : RecoveryState γ) p, Accounts fate pn x (takeFrames fate space x p).1
      (takeFrames fate space x p).2 :=
    fun x p => takeFrames_accounts fate fate space x p pn fun _ _ => rfl
  have hheld := forEach_held id haccounts (fun p => decide (space = .applicationData ∧ p = pn))
    (fun x p _ => (takeFrames_held fate space x p pn).trans (by simp))
    (s.discardAllTracked space) hnot (s.sentFrames space).keys
  have htracks := forEach_tracks id haccounts (fun x p _ => takeFrames_tracks fate space x p pn)
    (s.discardAllTracked space) hnot (s.sentFrames space).keys
  refine ⟨hheld.trans ?_, htracks.trans (discardAllTracked_tracks space s pn)⟩
  by_cases hspace : space = .applicationData
  · subst hspace
    split
    · rfl
    · next hany =>
      -- A number that is no key has no frames to begin with.
      have hkey : pn ∉ (s.sentFrames .applicationData).keys := fun hmem =>
        hany (List.any_eq_true.mpr ⟨pn, hmem, by simp⟩)
      rw [OrdMap.mem_keys_iff, Option.not_isSome_iff_eq_none] at hkey
      show ((s.sentFrames .applicationData).find? pn).toList = []
      rw [hkey, Option.toList_none]
  · rw [if_neg (by simp [hspace]), if_neg hspace]
    rfl

theorem clearSpace_inStep (hnot : s.NotProbe pn) :
    InStep pn s
      (forEach (takeFrames fate space) (s.discardAllTracked space) (s.sentFrames space).keys).1 :=
  InStep.of_removed (clearSpace_held fate space s pn hnot).1 (clearSpace_held fate space s pn hnot).2

end ClearSpace

theorem processHandshakeDone_accounts (pn : Nat) (s : RecoveryState γ) (earlyDataRejected : Bool) :
    Accounts .requeued pn s (s.processHandshakeDone earlyDataRejected).1
      (s.processHandshakeDone earlyDataRejected).2 := by
  have hdiscard : ∀ t : RecoveryState γ, Accounts .requeued pn t (t.discardSpace .handshake).1
      (t.discardSpace .handshake).2 := fun t => clearSpace_accounts _ _ t pn nofun
  cases earlyDataRejected with
  | false => exact hdiscard s
  | true => exact (requeueZeroRttInFlight_accounts pn s).trans (hdiscard _)

theorem processHandshakeDone_inStep (pn : Nat) (s : RecoveryState γ) (earlyDataRejected : Bool)
    (hnot : s.NotProbe pn) : InStep pn s (s.processHandshakeDone earlyDataRejected).1 := by
  cases earlyDataRejected with
  | false => exact clearSpace_inStep _ _ s pn hnot
  | true =>
    have hnot' := ((requeueZeroRttInFlight_accounts pn s).fates hnot).1
    exact (requeueZeroRttInFlight_inStep pn s).trans (clearSpace_inStep _ _ _ pn hnot')

theorem appFrames_dropInitialFrames (s : RecoveryState γ) :
    appFrames s.dropInitialFrames.pendingFrames = appFrames s.pendingFrames := by
  unfold appFrames dropInitialFrames
  rw [List.filter_filter]
  grind

theorem processRetry_accounts (pn : Nat) (s : RecoveryState γ) (initialCryptoData : Option Bytes) :
    Accounts .requeued pn s (s.processRetry initialCryptoData).1
      (s.processRetry initialCryptoData).2 := by
  have hreset : Accounts .requeued pn s (s.setNextPn .initial 0) [] := .of_same rfl rfl id
  have hdiscard : Accounts .requeued pn s ((s.setNextPn .initial 0).discardSpace .initial).1
      ((s.setNextPn .initial 0).discardSpace .initial).2 :=
    hreset.after (clearSpace_accounts .requeued .initial (s.setNextPn .initial 0) pn nofun)
  have hdrop : ∀ t : RecoveryState γ, Accounts .requeued pn t t.dropInitialFrames [] :=
    fun t => .of_same rfl (appFrames_dropInitialFrames t) id
  have hhello : ∀ t : RecoveryState γ,
      Accounts .requeued pn t (t.pushFrames (initialHello initialCryptoData)) [] := by
    intro t
    refine .of_same rfl ?_ id
    unfold pushFrames
    cases initialCryptoData <;> simp [initialHello, appFrames]
  exact ((hdiscard.andThen (hdrop _)).trans (requeueZeroRttInFlight_accounts pn _)).andThen
    (hhello _)

theorem processRetry_inStep (pn : Nat) (s : RecoveryState γ) (initialCryptoData : Option Bytes)
    (hnot : s.NotProbe pn) : InStep pn s (s.processRetry initialCryptoData).1 := by
  have hreset : InStep pn s (s.setNextPn .initial 0) := .of_same rfl rfl
  have hdiscard : InStep pn s ((s.setNextPn .initial 0).discardSpace .initial).1 :=
    hreset.trans (clearSpace_inStep .dropped .initial (s.setNextPn .initial 0) pn hnot)
  have hdrop : ∀ t : RecoveryState γ, InStep pn t t.dropInitialFrames :=
    fun t => .of_same rfl rfl
  have hhello : ∀ t : RecoveryState γ,
      InStep pn t (t.pushFrames (initialHello initialCryptoData)) :=
    fun t => .of_same rfl rfl
  exact ((hdiscard.trans (hdrop _)).trans (requeueZeroRttInFlight_inStep pn _)).trans (hhello _)

theorem requeueSpace_accounts (pn : Nat) (s : RecoveryState γ) (space : PacketNumberSpace) :
    Accounts .requeued pn s (s.requeueSpace space).1 (s.requeueSpace space).2 :=
  clearSpace_accounts .requeued space s pn fun _ => rfl

theorem resetPathRecovery_accounts (pn : Nat) (s : RecoveryState γ) (now : Nat) :
    Accounts .requeued pn s (s.resetPathRecoveryAfterValidation alg now).1
      (s.resetPathRecoveryAfterValidation alg now).2 := by
  have hrequeued := Accounts.forEach id (requeueSpace_accounts pn) s PacketNumberSpace.all
  unfold resetPathRecoveryAfterValidation
  exact hrequeued.andThen (.of_same rfl rfl fun _ => by nofun)

theorem resetPathRecovery_inStep (pn : Nat) (s : RecoveryState γ) (now : Nat) (hnot : s.NotProbe pn)
    :
    InStep pn s (s.resetPathRecoveryAfterValidation alg now).1 := by
  have hheld := forEach_held id (requeueSpace_accounts pn)
    (fun space => decide (space = .applicationData))
    (fun t space ht => (clearSpace_held .requeued space t pn ht).1.trans (by simp)) s hnot
    PacketNumberSpace.all
  unfold resetPathRecoveryAfterValidation
  exact Or.inr ⟨hheld, rfl⟩

/-! ## Sending -/

section Send

variable (s : RecoveryState γ) (space : PacketNumberSpace) (frames : List Frame) (size : Nat)
  (trackRetransmission : Bool) (appKind : Option ApplicationPacketKind) (now : Nat)
  (ecn : Option UdpEcnCodepoint)

theorem sendPacket_sentFrames (other : PacketNumberSpace) :
    (s.sendPacket space frames size trackRetransmission appKind now ecn).sentFrames other =
      if trackRetransmission = true ∧ other = space then
        (s.sentFrames other).insert (s.nextPn space) frames
      else s.sentFrames other := by
  unfold sendPacket
  rw [recordSent_eq]
  exact trackPacket_sentFrames ..

theorem sendPacket_pathMtu :
    (s.sendPacket space frames size trackRetransmission appKind now ecn).pathMtu = s.pathMtu := by
  unfold sendPacket
  rw [recordSent_eq]
  exact trackPacket_pathMtu ..

theorem sendPacket_pendingFrames :
    (s.sendPacket space frames size trackRetransmission appKind now ecn).pendingFrames =
      s.pendingFrames := by
  unfold sendPacket
  rw [recordSent_eq]
  exact trackPacket_pendingFrames ..

theorem sendPacket_other {pn : Nat}
    (hpn : space = .applicationData → pn ≠ s.nextPn .applicationData) :
    (s.sendPacket space frames size trackRetransmission appKind now ecn).held pn = s.held pn ∧
      (s.sendPacket space frames size trackRetransmission appKind now ecn).tracks pn =
        s.tracks pn := by
  constructor
  · unfold held
    rw [sendPacket_sentFrames]
    split
    · next hspace =>
      obtain ⟨-, rfl⟩ := hspace
      rw [OrdMap.find?_insert, if_neg (hpn rfl)]
    · rfl
  · unfold tracks tracked
    rw [sendPacket_lossDetection]
    split
    · unfold LossDetection.onPacketSent
      split
      · by_cases hspace : space = .applicationData
        · subst hspace
          rw [LossDetection.setSpace_self]
          rw [OrdMap.find?_insert, if_neg (hpn rfl)]
        · rw [LossDetection.setSpace_of_ne _ _ (Ne.symm hspace)]
      · rfl
    · rfl

/-- The frames of a new tracked packet are kept under its number, and the packet is tracked
if it asks for an acknowledgement. -/
theorem sendPacket_new (hack : frames.any Frame.isAckEliciting = true) :
    (s.sendPacket .applicationData frames size true appKind now ecn).held
        (s.nextPn .applicationData) = [frames] ∧
      (s.sendPacket .applicationData frames size true appKind now ecn).tracks
        (s.nextPn .applicationData) = true := by
  constructor
  · simp [held, sendPacket_sentFrames]
  · unfold tracks tracked
    rw [sendPacket_lossDetection, if_pos rfl]
    simp [LossDetection.onPacketSent, hack]

end Send

end RecoveryState

end Starfish.Quic
