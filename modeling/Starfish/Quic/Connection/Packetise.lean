import Mathlib.Algebra.Order.Group.Multiset
import Mathlib.Tactic.Abel
import Starfish.Quic.Connection.SendLoop

/-!
# The packetiser loses nothing

What the queued frames carry is compared, as a multiset of items, with what the
packets sent and the queue carry after a call of `send_pending_frames`. A packet
that is closed because a data frame can neither fit nor be split loses that frame.
-/

namespace Starfish.Quic

universe u

/-! ## Items of queues and packets -/

def framesItems (space : PacketNumberSpace) (frames : List Frame) : Multiset Item :=
  ↑(frames.flatMap (frameItems space))

def queueItems (pending : List (PacketNumberSpace × Frame)) : Multiset Item :=
  ↑(pending.flatMap fun x => frameItems x.1 x.2)

def packetsItems (packets : List BuiltPacket) : Multiset Item :=
  ↑(packets.flatMap fun packet => packet.frames.flatMap (frameItems packet.space))

section Items

variable (space : PacketNumberSpace)

@[simp] theorem framesItems_nil : framesItems space [] = 0 := rfl

@[simp] theorem framesItems_cons (frame : Frame) (rest : List Frame) :
    framesItems space (frame :: rest) = ↑(frameItems space frame) + framesItems space rest := by
  simp [framesItems]

@[simp] theorem framesItems_append (frames frames' : List Frame) :
    framesItems space (frames ++ frames') =
      framesItems space frames + framesItems space frames' := by
  simp [framesItems]

@[simp] theorem queueItems_append (pending pending' : List (PacketNumberSpace × Frame)) :
    queueItems (pending ++ pending') = queueItems pending + queueItems pending' := by
  simp [queueItems]

@[simp] theorem queueItems_map (frames : List Frame) :
    queueItems (frames.map fun f => (space, f)) = framesItems space frames := by
  simp [queueItems, framesItems, List.flatMap_map]

@[simp] theorem packetsItems_nil : packetsItems [] = 0 := rfl

@[simp] theorem packetsItems_append (packets packets' : List BuiltPacket) :
    packetsItems (packets ++ packets') = packetsItems packets + packetsItems packets' := by
  simp [packetsItems]

theorem packetsItems_singleton (packet : BuiltPacket) :
    packetsItems [packet] = framesItems packet.space packet.frames := by
  simp [packetsItems, framesItems]

theorem queueItems_perm {pending pending' : List (PacketNumberSpace × Frame)}
    (h : pending.Perm pending') : queueItems pending = queueItems pending' :=
  Multiset.coe_eq_coe.mpr (h.flatMap_right _)

end Items

/-! ## The condition -/

/-- Data frames without data and without FIN. -/
def Frame.carriesNothing : Frame → Bool
  | .crypto cf => cf.data.isEmpty
  | .stream sf => sf.data.isEmpty && !sf.fin
  | _ => false

theorem frameItems_eq_nil_iff (space : PacketNumberSpace) (frame : Frame) :
    frameItems space frame = [] ↔ frame.carriesNothing = true := by
  unfold frameItems Frame.carriesNothing
  split
  · next cf => cases h : cf.data <;> simp [h, dataItems]
  · next sf => cases h : sf.data <;> simp [h, dataItems]
  · simp

/-- Every frame that is taken up while a packet is filled can be encoded, and the
packet is not closed on a frame that can neither fit nor be split, unless the frame
carries nothing. -/
def fillKeeps (maxPayload : Nat) : Nat → List Frame → Bool
  | _, [] => true
  | payloadLen, frame :: rest =>
    match place maxPayload payloadLen frame with
    | .error _ => false
    | .ok (.accept encoded) => fillKeeps maxPayload (payloadLen + encoded.length) rest
    | .ok .unsplit => frame.carriesNothing
    | .ok (.split _ _ _) | .ok .defer => true

section Condition

variable {β : Type u} (builder : PacketBuilder β)

/-- `fillKeeps` for every packet that the loop over a space fills, in the state before
that packet. -/
def loopKeeps (space : PacketNumberSpace) : Nat → Sending β → List Frame → Prop
  | _, _, [] => True
  | 0, _, _ :: _ => True
  | fuel + 1, s, frame :: rest =>
    fillKeeps (maxPayload builder (beforePacket builder s.conn space) space) 0
        (frame :: rest) = true ∧
      match sendTurn builder space s (frame :: rest) with
      | (.ok (.again frames), s) => loopKeeps space fuel s frames
      | _ => True

def spaceKeeps (s : Sending β) (space : PacketNumberSpace) : Prop :=
  spaceReady builder s.conn space = true →
    let frames := (s.pendingFrames.filter (takesPart builder s.conn space)).map Prod.snd
    loopKeeps builder space (queueWeight frames)
      { s with pendingFrames := setAside builder s.conn space s.pendingFrames } frames

def spacesKeep : Sending β → List PacketNumberSpace → Prop
  | _, [] => True
  | s, space :: rest =>
    spaceKeeps builder s space ∧
      match sendSpace builder s space with
      | (.ok (), s) => spacesKeep s rest
      | _ => True

/-- No packet filled in the call is closed on a frame that can neither fit nor be
split, and every frame taken up can be encoded. -/
def PacketiserKeeps (conn : β) (pending : List (PacketNumberSpace × Frame)) : Prop :=
  spacesKeep builder ⟨conn, pending, [], []⟩ PacketNumberSpace.all

/-- The call succeeds, and what the packets sent and the queue carry afterwards is
exactly what the queue carried before. -/
def Conserved (pending : List (PacketNumberSpace × Frame))
    (res : Except QuicError Unit × Sending β) : Prop :=
  res.1 = .ok () ∧
    packetsItems res.2.sent.flatten + queueItems res.2.pendingFrames = queueItems pending

structure PacketBuilder.Reliable : Prop where
  build : ∀ b space frames payload pendingBytes,
    ∃ packet, (builder.build b space frames payload pendingBytes).1 = .ok packet
  send : ∀ b packets, (builder.sendBuiltDatagram b packets).1 = .ok ()

end Condition

/-! ## Balances -/

/-- A computation that starts with the items `before` fails, or ends with all of them
but the lost ones; nothing is lost exactly if `keeps` holds, and it does not hold if the
computation fails. -/
def Balanced (before : Multiset Item) (keeps : Prop) : Except QuicError (Multiset Item) → Prop
  | .error _ => ¬ keeps
  | .ok after => ∃ lost : Multiset Item, after + lost = before ∧ (lost = 0 ↔ keeps)

theorem Balanced.refl (items : Multiset Item) : Balanced items True (.ok items) :=
  ⟨0, add_zero items, by simp⟩

variable {result : Except QuicError (Multiset Item)}

theorem Balanced.trans {before mid : Multiset Item} {keeps keeps' : Prop}
    (h : Balanced before keeps (.ok mid))
    (h' : Balanced mid keeps' result) : Balanced before (keeps ∧ keeps') result := by
  obtain ⟨lost, hlost, hiff⟩ := h
  cases result with
  | error e => exact fun hkeeps => h' hkeeps.2
  | ok after =>
    obtain ⟨lost', hlost', hiff'⟩ := h'
    refine ⟨lost' + lost, ?_, ?_⟩
    · rw [← add_assoc, hlost', hlost]
    · rw [← hiff, ← hiff', and_comm]
      simp only [← Multiset.card_eq_zero, Multiset.card_add, Nat.add_eq_zero_iff]

theorem Balanced.add {before : Multiset Item} {keeps : Prop} (h : Balanced before keeps result)
    (items : Multiset Item) : Balanced (items + before) keeps (result.map (items + ·)) := by
  cases result with
  | error e => exact h
  | ok after =>
    obtain ⟨lost, hlost, hiff⟩ := h
    exact ⟨lost, by rw [add_assoc, hlost], hiff⟩

theorem fillPacket_balanced (maxPayload : Nat) (space : PacketNumberSpace)
    (packetFrames : List Frame) (payload : Bytes) (frames : List Frame) :
    Balanced (framesItems space packetFrames + framesItems space frames)
      (fillKeeps maxPayload payload.length frames = true)
      ((fillPacket maxPayload packetFrames payload frames).map fun filled =>
        framesItems space filled.packetFrames + framesItems space filled.rest) := by
  induction frames generalizing packetFrames payload with
  | nil => exact ⟨0, by simp, by simp [fillKeeps]⟩
  | cons frame rest ih =>
    simp only [fillPacket, fillKeeps]
    cases hplace : place maxPayload payload.length frame with
    | error e => exact Bool.false_ne_true
    | ok placement =>
      cases placement with
      | accept encoded =>
        have hrec := ih (packetFrames ++ [frame]) (payload ++ encoded)
        simpa [add_assoc] using hrec
      | split head tail encoded =>
        have hitems := splitFrame_items (place_split hplace) space
        refine ⟨0, ?_, by simp⟩
        simp [← hitems, ← Multiset.coe_add, add_assoc]
      | unsplit =>
        refine ⟨↑(frameItems space frame), ?_, ?_⟩
        · simp only [framesItems_cons]
          abel
        · rw [Multiset.coe_eq_zero]
          exact frameItems_eq_nil_iff space frame
      | defer => exact ⟨0, by simp, by simp⟩

/-! ## One pass -/

/-- The items in the queue, in the datagram being coalesced and in the datagrams sent. -/
def Sending.items {β : Type u} (s : Sending β) : Multiset Item :=
  queueItems s.pendingFrames + packetsItems s.coalescedPackets + packetsItems s.sent.flatten

def Turn.frames : Turn → List Frame
  | .stop frames | .again frames => frames

section Turns

variable {β : Type u} {builder : PacketBuilder β}

theorem sendDatagram_items (hreliable : builder.Reliable) (s : Sending β)
    (packets : List BuiltPacket) :
    ∃ s', sendDatagram builder s packets = (.ok (), s') ∧
      s'.coalescedPackets = s.coalescedPackets ∧ s'.pendingFrames = s.pendingFrames ∧
      s'.items = s.items + packetsItems packets := by
  have hsend := hreliable.send s.conn packets
  unfold sendDatagram
  split
  · next herror =>
    rw [herror] at hsend
    cases hsend
  · exact ⟨_, rfl, rfl, rfl, by simp [Sending.items, add_assoc]⟩

theorem flushCoalesced_items (hreliable : builder.Reliable) (s : Sending β) :
    ∃ s', flushCoalesced builder s = (.ok (), s') ∧ s'.coalescedPackets = [] ∧
      s'.pendingFrames = s.pendingFrames ∧ s'.items = s.items := by
  unfold flushCoalesced
  split
  · next hempty => exact ⟨s, rfl, List.isEmpty_iff.mp hempty, rfl, rfl⟩
  · obtain ⟨s', hsent, hnone, hpending, hitems⟩ :=
      sendDatagram_items hreliable { s with coalescedPackets := [] } s.coalescedPackets
    refine ⟨s', hsent, hnone, hpending, ?_⟩
    rw [hitems]
    simp only [Sending.items]
    abel

theorem emitPacket_items (hreliable : builder.Reliable) (s : Sending β)
    (space : PacketNumberSpace) (packet : BuiltPacket) :
    ∃ s', emitPacket builder s space packet = (.ok (), s') ∧
      s'.items = s.items + packetsItems [packet] := by
  obtain ⟨s', hflush, hnone, hpending, hitems⟩ := flushCoalesced_items hreliable s
  unfold emitPacket
  split
  · obtain ⟨s'', hsent, _, _, hitems'⟩ := sendDatagram_items hreliable s' [packet]
    exact ⟨s'', by rw [hflush]; exact hsent, by rw [hitems', hitems]⟩
  · split
    · refine ⟨_, rfl, ?_⟩
      simp only [Sending.items, packetsItems_append]
      abel
    · refine ⟨_, by rw [hflush], ?_⟩
      rw [← hitems]
      simp only [Sending.items, packetsItems_append]
      abel

/-- Refused packets go back to the queue and built ones are emitted, so that only the
filling of the packet can lose anything. -/
theorem sendTurn_balanced (hreliable : builder.Reliable) (space : PacketNumberSpace)
    (s : Sending β) (frames : List Frame) :
    Balanced (s.items + framesItems space frames)
      (fillKeeps (maxPayload builder (beforePacket builder s.conn space) space) 0 frames = true)
      ((sendTurn builder space s frames).1.map fun turn =>
        (sendTurn builder space s frames).2.items + framesItems space turn.frames) := by
  have hfill := (fillPacket_balanced (maxPayload builder (beforePacket builder s.conn space) space)
    space [] [] frames).add s.items
  unfold sendTurn
  dsimp only
  cases hfilled : fillPacket (maxPayload builder (beforePacket builder s.conn space) space)
      [] [] frames with
  | error e =>
    rw [hfilled] at hfill
    exact hfill
  | ok filled =>
    rw [hfilled] at hfill
    dsimp only
    split
    · next hempty =>
      rw [List.isEmpty_iff] at hempty
      simpa [Except.map, hempty, Turn.frames, Sending.items] using hfill
    · split
      · next e conn hbuild =>
        obtain ⟨packet, hok⟩ := hreliable.build _ _ _ _ _
        rw [hbuild] at hok
        cases hok
      · simpa [Except.map, Turn.frames, Sending.items] using hfill
      · next packet conn hbuild =>
        obtain ⟨hspace, hframes⟩ := builder.build_frames hbuild
        obtain ⟨s', hemit, hitems⟩ := emitPacket_items hreliable
          { s with conn := conn } space packet
        rw [packetsItems_singleton, hspace, hframes] at hitems
        have hsame : s'.items + framesItems space filled.rest =
            s.items + (framesItems space filled.packetFrames + framesItems space filled.rest) := by
          rw [hitems, add_assoc]
          rfl
        rw [hemit]
        change Balanced _ _ (.ok (s'.items + framesItems space filled.rest))
        rw [hsame]
        exact hfill

/-! ## The whole call -/

theorem sendLoop_balanced (hreliable : builder.Reliable) (space : PacketNumberSpace) {fuel : Nat}
    {s : Sending β} {frames : List Frame} {res : Except QuicError (List Frame) × Sending β}
    (h : sendLoop builder space fuel s frames = some res) :
    Balanced (s.items + framesItems space frames) (loopKeeps builder space fuel s frames)
      (res.1.map fun frames => res.2.items + framesItems space frames) := by
  induction fuel generalizing s frames with
  | zero =>
    cases frames with
    | nil =>
      cases h
      exact Balanced.refl _
    | cons frame rest => cases h
  | succ fuel ih =>
    cases frames with
    | nil =>
      cases h
      exact Balanced.refl _
    | cons frame rest =>
      have hturn := sendTurn_balanced hreliable space s (frame :: rest)
      simp only [sendLoop] at h
      simp only [loopKeeps]
      cases hres : sendTurn builder space s (frame :: rest) with
      | mk turn s' =>
        rw [hres] at h hturn
        cases turn with
        | error e =>
          cases h
          exact fun hkeeps => hturn hkeeps.1
        | ok turn =>
          cases turn with
          | stop frames' =>
            cases h
            exact hturn.trans (Balanced.refl _)
          | again frames' => exact hturn.trans (ih h)

theorem takesPart_space {conn : β} {space : PacketNumberSpace} {x : PacketNumberSpace × Frame}
    (h : takesPart builder conn space x = true) : x.1 = space := by
  simp only [takesPart, Bool.and_eq_true, decide_eq_true_eq] at h
  exact h.1

theorem setAside_perm (conn : β) (space : PacketNumberSpace)
    (pending : List (PacketNumberSpace × Frame)) :
    (setAside builder conn space pending ++
      pending.filter (takesPart builder conn space)).Perm pending := by
  have hspaces := List.filter_append_perm (fun x => decide (x.1 = space)) pending
  have htakes := List.filter_append_perm (takesPart builder conn space)
    (pending.filter fun x => decide (x.1 = space))
  have htaken : (pending.filter fun x => decide (x.1 = space)).filter
      (takesPart builder conn space) = pending.filter (takesPart builder conn space) := by
    rw [List.filter_filter]
    refine List.filter_congr fun x _ => ?_
    cases h : takesPart builder conn space x with
    | false => rfl
    | true => simp [takesPart_space h]
  have hleft : (pending.filter fun x => decide (x.1 = space)).filter
      (fun x => !takesPart builder conn space x) =
        pending.filter fun x => decide (x.1 = space) && !takesPart builder conn space x := by
    simp [Bool.and_comm]
  rw [htaken, hleft] at htakes
  unfold setAside
  rw [List.append_assoc]
  refine List.perm_append_comm.trans (List.Perm.trans ?_ hspaces)
  exact (List.perm_append_comm.trans htakes).append_right _

theorem setAside_items (builder : PacketBuilder β) (conn : β) (space : PacketNumberSpace)
    (pending : List (PacketNumberSpace × Frame)) :
    queueItems (setAside builder conn space pending) +
      framesItems space ((pending.filter (takesPart builder conn space)).map Prod.snd) =
        queueItems pending := by
  have htaken : ((pending.filter (takesPart builder conn space)).map Prod.snd).map
      (fun f => (space, f)) = pending.filter (takesPart builder conn space) := by
    rw [List.map_map]
    refine (List.map_congr_left fun x hx => ?_).trans (List.map_id _)
    grind [takesPart_space]
  grind [queueItems_map, queueItems_append, queueItems_perm, setAside_perm]

theorem sendFrames_balanced (hreliable : builder.Reliable) (space : PacketNumberSpace)
    (s : Sending β) (frames : List Frame) :
    Balanced (s.items + framesItems space frames)
      (loopKeeps builder space (queueWeight frames) s frames)
      ((sendFrames builder space s frames).1.map fun left =>
        (sendFrames builder space s frames).2.items + framesItems space left) :=
  sendLoop_balanced hreliable space (Option.some_get _).symm

theorem sendSpace_balanced (hreliable : builder.Reliable) (s : Sending β)
    (space : PacketNumberSpace) :
    Balanced s.items (spaceKeeps builder s space)
      ((sendSpace builder s space).1.map fun _ => (sendSpace builder s space).2.items) := by
  unfold sendSpace spaceKeeps
  cases hready : spaceReady builder s.conn space with
  | false => simpa [Except.map] using Balanced.refl s.items
  | true =>
    simp only [if_true, forall_const]
    have haside := setAside_items builder s.conn space s.pendingFrames
    generalize (s.pendingFrames.filter (takesPart builder s.conn space)).map Prod.snd =
      frames at haside
    generalize hs : ({ s with pendingFrames := setAside builder s.conn space s.pendingFrames } :
      Sending β) = taken
    have hbefore : taken.items + framesItems space frames = s.items := by
      grind [Sending.items]
    have hloop := sendFrames_balanced hreliable space taken frames
    rw [hbefore] at hloop
    cases hsent : sendFrames builder space taken frames with
    | mk result s' =>
      rw [hsent] at hloop
      cases result with
      | error e => exact hloop
      | ok left =>
        have hafter : Sending.items
            { s' with pendingFrames := s'.pendingFrames ++ left.map fun f => (space, f) } =
              s'.items + framesItems space left := by
          simp only [Sending.items, queueItems_append, queueItems_map]
          abel
        rw [hafter]
        exact hloop

theorem sendSpaces_balanced (hreliable : builder.Reliable) (s : Sending β)
    (spaces : List PacketNumberSpace) :
    Balanced s.items (spacesKeep builder s spaces)
      ((sendSpaces builder s spaces).1.map fun _ => (sendSpaces builder s spaces).2.items) := by
  induction spaces generalizing s with
  | nil => exact Balanced.refl s.items
  | cons space rest ih =>
    have hspace := sendSpace_balanced hreliable s space
    simp only [sendSpaces, spacesKeep]
    cases hsent : sendSpace builder s space with
    | mk result s' =>
      rw [hsent] at hspace
      cases result with
      | error e => exact fun hkeeps => hspace hkeeps.1
      | ok => exact hspace.trans (ih s')

/-- For every queue, every budget and every pattern of built and refused packets, the
call conserves the frames if and only if no packet is closed on a frame that can
neither fit nor be split. -/
theorem packetisation_conserves_iff (builder : PacketBuilder β) (hreliable : builder.Reliable)
    (conn : β) (pending : List (PacketNumberSpace × Frame)) :
    Conserved pending (sendPendingFrames builder conn pending) ↔
      PacketiserKeeps builder conn pending := by
  have hspaces := sendSpaces_balanced hreliable ⟨conn, pending, [], []⟩ PacketNumberSpace.all
  have hstart : Sending.items ⟨conn, pending, [], []⟩ = queueItems pending := by
    simp [Sending.items]
  rw [hstart] at hspaces
  unfold sendPendingFrames PacketiserKeeps
  cases hsent : sendSpaces builder ⟨conn, pending, [], []⟩ PacketNumberSpace.all with
  | mk result s =>
    rw [hsent] at hspaces
    cases result with
    | error e => exact ⟨fun h => (nomatch h.1), fun h => absurd h hspaces⟩
    | ok =>
      obtain ⟨lost, hlost, hiff⟩ := hspaces
      obtain ⟨s', hflush, hnone, _, hitems⟩ := flushCoalesced_items hreliable s
      have hend : packetsItems s'.sent.flatten + queueItems s'.pendingFrames = s.items := by
        rw [← hitems]
        simp only [Sending.items, hnone]
        abel
      simp only [hflush, Conserved, hend, true_and, ← hiff, ← hlost]
      exact ⟨fun h => left_eq_add.mp h, fun h => by rw [h, add_zero]⟩

end Turns

/-- A connection with 1-RTT keys and a datagram size, on which every packet is built;
its state is the next packet number. -/
def openBuilder (maxUdp : Nat) : PacketBuilder Nat where
  applicationSendKind := fun _ => some .oneRtt
  hasKeys := fun _ _ => false
  maxSendUdpPayloadSize := fun _ => maxUdp
  tagLen := fun _ _ => 16
  maybeInitiateKeyUpdate := id
  build := fun pn space frames payload _ =>
    (.ok (some ⟨space, pn, frames, payload.length + 30, true, true, true, some .oneRtt⟩), pn + 1)
  sendBuiltDatagram := fun pn _ => (.ok (), pn)
  build_frames := by
    intro b space frames payload pendingBytes packet b' h
    cases h
    exact ⟨rfl, rfl⟩

theorem openBuilder_reliable (maxUdp : Nat) : (openBuilder maxUdp).Reliable :=
  ⟨fun _ _ _ _ _ => ⟨_, rfl⟩, fun _ _ => rfl⟩

/-- A PING and a STREAM frame that is divided over two packets; the CRYPTO frame has to
wait for its keys. -/
theorem packetisation_conserves_split : (openBuilder 130).Reliable ∧
    Conserved
      [(.initial, .crypto ⟨0, [1, 2]⟩), (.applicationData, .ping),
        (.applicationData, .stream ⟨0, 0, true, [1, 2, 3, 4, 5, 6, 7, 8, 9, 10, 11, 12]⟩)]
      (sendPendingFrames (openBuilder 130) 0
        [(.initial, .crypto ⟨0, [1, 2]⟩), (.applicationData, .ping),
          (.applicationData, .stream ⟨0, 0, true, [1, 2, 3, 4, 5, 6, 7, 8, 9, 10, 11, 12]⟩)]) := by
  refine ⟨openBuilder_reliable 130, ?_⟩
  refine (packetisation_conserves_iff _ (openBuilder_reliable 130) _ _).mpr ?_
  exact ⟨nofun, nofun, fun _ => ⟨rfl, rfl, trivial⟩, trivial⟩

def dataThenFin : List (PacketNumberSpace × Frame) :=
  [(.applicationData, .stream ⟨0, 0, false, List.replicate 1349 7⟩),
    (.applicationData, .stream ⟨4, 0, true, []⟩)]

/-- The FIN is neither sent nor queued again. -/
theorem fin_frame_is_dropped : (openBuilder 1472).Reliable ∧
    ¬ Conserved dataThenFin (sendPendingFrames (openBuilder 1472) 0 dataThenFin) := by
  refine ⟨openBuilder_reliable 1472, fun h => ?_⟩
  have hfin : Item.fin .applicationData 4 0 ∈ queueItems dataThenFin := by decide +kernel
  rw [← h.2] at hfin
  revert hfin
  decide +kernel

end Starfish.Quic
