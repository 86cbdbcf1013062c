import Starfish.Quic.FrameEncode

/-!
# Splitting frames

A CRYPTO or STREAM frame that does not fit is divided at the largest position
whose head fits, found by a binary search over the encoded lengths. What a frame
carries is a multiset of items, and splitting keeps it.
-/

namespace Starfish.Quic

/-- The search for a split position. `fits mid` tells whether the head of `mid`
bytes fits, or nothing if it cannot be encoded. -/
def splitSearch (fits : Nat → Option Bool) : Nat → Nat → Nat → Nat → Option Nat
  | 0, _, _, splitAt => some splitAt
  | fuel + 1, low, high, splitAt =>
    if low ≤ high then
      let mid := low + (high - low) / 2
      match fits mid with
      | none => none
      | some true => splitSearch fits fuel (mid + 1) high mid
      | some false => splitSearch fits fuel low (mid - 1) splitAt
    else some splitAt

variable {fuel low high splitAt n : Nat} {frame head tail : Frame}

theorem splitSearch_fuel (fits : Nat → Option Bool) (more : Nat)
    (hlow : 0 < low) (hfuel : high + 1 - low ≤ fuel) :
    splitSearch fits (fuel + more) low high splitAt = splitSearch fits fuel low high splitAt := by
  induction fuel generalizing low high splitAt with
  | zero =>
    have hdone : ¬ low ≤ high := by omega
    cases more with
    | zero => rfl
    | succ more => simp [splitSearch, hdone]
  | succ fuel ih =>
    grind [splitSearch]

theorem splitSearch_range {fits : Nat → Option Bool} {result : Nat}
    (hlow : 0 < low) (h : splitSearch fits fuel low high splitAt = some result) :
    result = splitAt ∨ low ≤ result ∧ result ≤ high := by
  induction fuel generalizing low high splitAt with
  | zero =>
    grind [splitSearch]
  | succ fuel ih =>
    grind [splitSearch]

/-- Where to divide a frame of `len` data bytes; `candidate mid` is the frame cut
to its first `mid` bytes. -/
def splitPoint (whole : Frame) (candidate : Nat → Frame) (len budget : Nat) : Option Nat :=
  if len ≤ 1 then none
  else
    match whole.encode with
    | .error _ => none
    | .ok full =>
      if full.length ≤ budget then none
      else
        let fits := fun mid =>
          (candidate mid).encode.toOption.map fun encoded => decide (encoded.length ≤ budget)
        match splitSearch fits len 1 (len - 1) 0 with
        | none => none
        | some splitAt => if splitAt = 0 then none else some splitAt

variable {budget : Nat}

theorem splitPoint_bounds {whole : Frame} {candidate : Nat → Frame} {len : Nat}
    (h : splitPoint whole candidate len budget = some n) : 0 < n ∧ n < len := by
  unfold splitPoint at h
  split at h
  · cases h
  · next hlen =>
    split at h
    · cases h
    · split at h
      · cases h
      · dsimp only at h
        split at h
        · cases h
        · next splitAt hsearch =>
          split at h
          · cases h
          · next hpos =>
            obtain rfl := Option.some.inj h
            rcases splitSearch_range Nat.one_pos hsearch with hzero | hrange
            · exact absurd hzero hpos
            · omega

/-- Split a CRYPTO or STREAM frame so that the head fits within `budget` bytes. FIN
stays with the last part. -/
def splitFrame (frame : Frame) (budget : Nat) : Option (Frame × Frame) :=
  match frame with
  | .crypto cf =>
    (splitPoint frame (fun mid => .crypto ⟨cf.offset, cf.data.take mid⟩)
      cf.data.length budget).map fun splitAt =>
        (.crypto ⟨cf.offset, cf.data.take splitAt⟩,
          .crypto ⟨cf.offset + splitAt, cf.data.drop splitAt⟩)
  | .stream sf =>
    (splitPoint frame (fun mid => .stream ⟨sf.streamId, sf.offset, false, sf.data.take mid⟩)
      sf.data.length budget).map fun splitAt =>
        (.stream ⟨sf.streamId, sf.offset, false, sf.data.take splitAt⟩,
          .stream ⟨sf.streamId, sf.offset + splitAt, sf.fin, sf.data.drop splitAt⟩)
  | _ => none

/-! ## What frames carry -/

/-- What must not be lost: a frame that is sent whole, a byte of the CRYPTO stream
(`none`) or of a stream with its offset, or the end of a stream. -/
inductive Item
  | control (space : PacketNumberSpace) (frame : Frame)
  | byte (space : PacketNumberSpace) (stream : Option Nat) (offset : Nat) (value : UInt8)
  | fin (space : PacketNumberSpace) (stream finalSize : Nat)
deriving DecidableEq, Repr

def dataItems (space : PacketNumberSpace) (stream : Option Nat) : Nat → Bytes → List Item
  | _, [] => []
  | offset, value :: rest =>
    .byte space stream offset value :: dataItems space stream (offset + 1) rest

variable (space : PacketNumberSpace)

theorem dataItems_append (stream : Option Nat) (offset : Nat) (a b : Bytes) :
    dataItems space stream offset (a ++ b) =
      dataItems space stream offset a ++ dataItems space stream (offset + a.length) b := by
  induction a generalizing offset with
  | nil => simp [dataItems]
  | cons value rest ih =>
    grind [dataItems]

theorem dataItems_take_drop (stream : Option Nat) (offset : Nat) {data : Bytes}
    (hn : n ≤ data.length) : dataItems space stream offset (data.take n) ++
      dataItems space stream (offset + n) (data.drop n) = dataItems space stream offset data := by
  grind [dataItems_append, List.take_append_drop]

def frameItems (space : PacketNumberSpace) : Frame → List Item
  | .crypto cf => dataItems space none cf.offset cf.data
  | .stream sf =>
    dataItems space (some sf.streamId) sf.offset sf.data ++
      if sf.fin then [.fin space sf.streamId (sf.offset + sf.data.length)] else []
  | frame => [.control space frame]

theorem splitFrame_items (h : splitFrame frame budget = some (head, tail))
    (space : PacketNumberSpace) :
    frameItems space head ++ frameItems space tail = frameItems space frame := by
  unfold splitFrame at h
  split at h
  · next cf =>
    obtain ⟨n, hn, hparts⟩ := Option.map_eq_some_iff.mp h
    obtain ⟨rfl, rfl⟩ := Prod.mk.inj hparts
    exact dataItems_take_drop space none cf.offset (Nat.le_of_lt (splitPoint_bounds hn).2)
  · next sf =>
    obtain ⟨n, hn, hparts⟩ := Option.map_eq_some_iff.mp h
    obtain ⟨rfl, rfl⟩ := Prod.mk.inj hparts
    have hlen := Nat.le_of_lt (splitPoint_bounds hn).2
    have hfinal : sf.offset + n + (sf.data.length - n) = sf.offset + sf.data.length := by omega
    simp only [frameItems, Bool.false_eq_true, if_false, List.append_nil, List.length_drop,
      hfinal, ← List.append_assoc, dataItems_take_drop space _ _ hlen]
  · cases h

/-- A measure that every packet lowers: one for each frame and one for each data byte. -/
def Frame.weight : Frame → Nat
  | .crypto cf => 1 + cf.data.length
  | .stream sf => 1 + sf.data.length
  | _ => 1

theorem Frame.weight_pos (frame : Frame) : 0 < frame.weight := by
  unfold Frame.weight
  split <;> omega

theorem splitFrame_weight
    (h : splitFrame frame budget = some (head, tail)) : tail.weight < frame.weight := by
  unfold splitFrame at h
  split at h
  · obtain ⟨n, hn, hparts⟩ := Option.map_eq_some_iff.mp h
    obtain ⟨rfl, rfl⟩ := Prod.mk.inj hparts
    have hbounds := splitPoint_bounds hn
    simp only [Frame.weight, List.length_drop]
    omega
  · obtain ⟨n, hn, hparts⟩ := Option.map_eq_some_iff.mp h
    obtain ⟨rfl, rfl⟩ := Prod.mk.inj hparts
    have hbounds := splitPoint_bounds hn
    simp only [Frame.weight, List.length_drop]
    omega
  · cases h

end Starfish.Quic
