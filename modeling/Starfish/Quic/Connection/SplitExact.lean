import Starfish.Quic.Connection.SplitFrame

/-!
# Splits are exact and maximal

The binary search of `split_frame` finds the longest head that fits, because the encoded size
of a frame grows with its data: the varint of the length never gets shorter.
-/

namespace Starfish.Quic

/-- The search over a property that the shorter heads keep: the result is the largest number
with it. Below `low` the last number was found, above `high` there is none. -/
theorem splitSearch_largest {P : Nat → Bool} (hshorter : ∀ m n, m ≤ n → P n = true → P m = true)
    {fuel low high splitAt len : Nat} (hfuel : high + 1 - low ≤ fuel) (hlow : splitAt + 1 = low)
    (hfound : splitAt = 0 ∨ P splitAt = true)
    (habove : ∀ n, high < n → n ≤ len → P n = false) :
    ∃ n, splitSearch (fun mid => some (P mid)) fuel low high splitAt = some n ∧
      (n = 0 ∨ P n = true) ∧ ∀ m, n < m → m ≤ len → P m = false := by
  induction fuel generalizing low high splitAt with
  | zero => exact ⟨splitAt, rfl, hfound, fun m hm hle => habove m (by omega) hle⟩
  | succ fuel ih =>
    rw [splitSearch]
    split
    · next hle =>
      dsimp only
      cases hmid : P (low + (high - low) / 2) with
      | true => exact ih (by omega) rfl (.inr hmid) habove
      | false =>
        refine ih (by omega) hlow hfound fun n hn hlen => ?_
        -- a longer head does not fit if the one in the middle does not
        by_contra hfits
        rw [hshorter _ n (by omega) (by simpa using hfits)] at hmid
        cases hmid
    · exact ⟨splitAt, rfl, hfound, fun m hm hle => habove m (by omega) hle⟩

/-- The number of bytes of an encoded integer. -/
def varintSize (value : Nat) : Nat :=
  if value < 0x40 then 1 else if value < 0x4000 then 2 else if value < 0x40000000 then 4 else 8

theorem varintSize_mono {m n : Nat} (h : m ≤ n) : varintSize m ≤ varintSize n := by
  unfold varintSize
  repeat' split
  all_goals omega

theorem encodeVarint_size {value : Nat} {bytes : Bytes} (h : encodeVarint value = .ok bytes) :
    bytes.length = varintSize value := by
  unfold encodeVarint at h
  unfold varintSize
  split at h
  · cases h
  · split at h
    · next hsmall =>
      cases h
      rw [if_pos hsmall]
      rfl
    · next hsmall =>
      rw [if_neg hsmall]
      split at h
      · next hmiddle =>
        cases h
        rw [if_pos hmiddle]
        rfl
      · next hmiddle =>
        rw [if_neg hmiddle]
        split at h <;> cases h <;> simp_all

theorem encodeVarints_size {values : List Nat} (h : ∀ value ∈ values, value ≤ maxVarint) :
    ∃ bytes, encodeVarints values = .ok bytes ∧
      bytes.length = (values.map varintSize).sum := by
  induction values with
  | nil => exact ⟨[], rfl, rfl⟩
  | cons value values ih =>
    obtain ⟨head, hhead⟩ := encodeVarint_of_le (h value List.mem_cons_self)
    obtain ⟨tail, htail, hsize⟩ := ih fun v hv => h v (List.mem_cons_of_mem value hv)
    refine ⟨head ++ tail, ?_, ?_⟩
    · rw [encodeVarints, hhead, htail]
      rfl
    · rw [List.length_append, encodeVarint_size hhead, hsize, List.map_cons, List.sum_cons]

def dataFrame (stream : Option Nat) (offset : Nat) (fin : Bool) (data : Bytes) : Frame :=
  match stream with
  | none => .crypto ⟨offset, data⟩
  | some streamId => .stream ⟨streamId, offset, fin, data⟩

/-- The encoding of a frame has at most as many bytes as there is room for. -/
def Frame.Fits (frame : Frame) (budget : Nat) : Prop :=
  ∃ bytes, frame.encode = .ok bytes ∧ bytes.length ≤ budget

def dataFrameSize (stream : Option Nat) (offset len : Nat) : Nat :=
  1 + (stream.map varintSize).getD 0 + varintSize offset + varintSize len + len

theorem dataFrameSize_mono (stream : Option Nat) (offset : Nat) {m n : Nat} (h : m ≤ n) :
    dataFrameSize stream offset m ≤ dataFrameSize stream offset n := by
  have hsize := varintSize_mono h
  unfold dataFrameSize
  omega

variable {stream : Option Nat} {offset : Nat} {data : Bytes} {budget : Nat}

section

variable (hstream : ∀ streamId, stream = some streamId → streamId ≤ maxVarint)
  (hdata : offset + data.length ≤ maxVarint)

include hstream hdata

theorem encode_dataFrame (fin : Bool) (n : Nat) :
    ∃ bytes, (dataFrame stream offset fin (data.take n)).encode = .ok bytes ∧
      bytes.length = dataFrameSize stream offset (min n data.length) := by
  have hoffset : offset ≤ maxVarint := by omega
  have hlen : min n data.length ≤ maxVarint := by omega
  have hsmall : ∀ b ≤ 0x0f, varintSize b = 1 := fun b hb => if_pos (by omega)
  cases stream with
  | none =>
    obtain ⟨head, hhead, hsize⟩ := @encodeVarints_size [0x06, offset, min n data.length]
      (by simp [hoffset, hlen, show 0x06 ≤ maxVarint by decide])
    refine ⟨head ++ data.take n, ?_, ?_⟩
    · rw [dataFrame, Frame.encode, CryptoFrame.encode, List.length_take, hhead]
      rfl
    · rw [List.length_append, hsize, List.length_take]
      simp [dataFrameSize, hsmall, Nat.add_assoc]
  | some streamId =>
    have hid := hstream streamId rfl
    have htype : (if fin then 0x0f else 0x0e) ≤ 0x0f := by split <;> omega
    obtain ⟨head, hhead, hsize⟩ :=
      @encodeVarints_size [if fin then 0x0f else 0x0e, streamId, offset, min n data.length]
        (by simp [hid, hoffset, hlen, Nat.le_trans htype (by decide : 0x0f ≤ maxVarint)])
    refine ⟨head ++ data.take n, ?_, ?_⟩
    · rw [dataFrame, Frame.encode, StreamFrame.encode, List.length_take, hhead]
      rfl
    · rw [List.length_append, hsize, List.length_take]
      simp [dataFrameSize, hsmall _ htype, Nat.add_assoc]

theorem fits_iff (fin : Bool) (n : Nat) :
    (dataFrame stream offset fin (data.take n)).Fits budget ↔
      dataFrameSize stream offset (min n data.length) ≤ budget := by
  obtain ⟨bytes, hbytes, hsize⟩ := encode_dataFrame hstream hdata fin n
  rw [Frame.Fits, hbytes, ← hsize]
  simp

end

theorem splitFrame_eq (stream : Option Nat) (offset : Nat) (fin : Bool) (data : Bytes)
    (budget : Nat) :
    splitFrame (dataFrame stream offset fin data) budget =
      (splitPoint (dataFrame stream offset fin data)
        (fun mid => dataFrame stream offset false (data.take mid)) data.length budget).map
          fun n => (dataFrame stream offset false (data.take n),
            dataFrame stream (offset + n) fin (data.drop n)) := by
  cases stream <;> rfl

theorem splitPoint_largest (hstream : ∀ streamId, stream = some streamId → streamId ≤ maxVarint)
    (hdata : offset + data.length ≤ maxVarint) (fin : Bool) (hlen : 1 < data.length)
    (hlong : ¬ (dataFrame stream offset fin data).Fits budget) :
    ∃ n, splitPoint (dataFrame stream offset fin data)
        (fun mid => dataFrame stream offset false (data.take mid)) data.length budget =
          (if n = 0 then none else some n) ∧
      (n = 0 ∨ dataFrameSize stream offset n ≤ budget) ∧
      ∀ m, n < m → m ≤ data.length → budget < dataFrameSize stream offset m := by
  obtain ⟨full, hfull, hsize⟩ := encode_dataFrame hstream hdata fin data.length
  rw [List.take_length] at hfull
  rw [← List.take_length (l := data), fits_iff hstream hdata, Nat.min_self] at hlong
  have hfits : (fun mid => (dataFrame stream offset false (data.take mid)).encode.toOption.map
      fun encoded => decide (encoded.length ≤ budget)) = fun mid =>
        some (decide (dataFrameSize stream offset (min mid data.length) ≤ budget)) := by
    funext mid
    obtain ⟨bytes, hbytes, hbytesSize⟩ := encode_dataFrame hstream hdata false mid
    rw [hbytes, ← hbytesSize]
    rfl
  obtain ⟨n, hsearch, hfound, habove⟩ := @splitSearch_largest
    (fun mid => decide (dataFrameSize stream offset (min mid data.length) ≤ budget))
    (fun m n hle hn => by
      have hmono := dataFrameSize_mono stream offset
        (show min m data.length ≤ min n data.length by omega)
      simp only [decide_eq_true_eq] at hn ⊢
      omega)
    data.length 1 (data.length - 1) 0 data.length (by omega) rfl (.inl rfl)
    (fun m hlast hle => by
      have hm : m = data.length := by omega
      simpa [hm] using hlong)
  refine ⟨n, ?_, ?_, ?_⟩
  · have hfull' : ¬ full.length ≤ budget := by
      rwa [hsize, Nat.min_self]
    rw [splitPoint, if_neg (by omega), hfull]
    simp only [if_neg hfull', hfits, hsearch]
  · refine hfound.imp_right fun hn => ?_
    have hbound : n ≤ data.length := by
      by_contra hlong'
      have hn' : dataFrameSize stream offset (min n data.length) ≤ budget := by simpa using hn
      rw [Nat.min_eq_right (by omega)] at hn'
      exact hlong hn'
    simpa [Nat.min_eq_left hbound] using hn
  · intro m hm hle
    simpa [Nat.min_eq_left hle] using habove m hm hle

/-- Frame splitting ends, returns the longest head that fits and the rest, and gives up only on
frames that need no split or cannot be split. -/
theorem splitFrame_exact (stream : Option Nat) (offset : Nat) (fin : Bool) (data : Bytes)
    (budget : Nat) (hstream : ∀ streamId, stream = some streamId → streamId < 2 ^ 62)
    (hdata : offset + data.length < 2 ^ 62) :
    let frame := dataFrame stream offset fin data
    (∀ fits more, splitSearch fits (data.length + more) 1 (data.length - 1) 0 =
      splitSearch fits data.length 1 (data.length - 1) 0) ∧
    (∀ head tail, splitFrame frame budget = some (head, tail) →
      ∃ n, 0 < n ∧ n < data.length ∧ head = dataFrame stream offset false (data.take n) ∧
        tail = dataFrame stream (offset + n) fin (data.drop n) ∧ head.Fits budget ∧
        ∀ m fin', n < m → m ≤ data.length →
          ¬ (dataFrame stream offset fin' (data.take m)).Fits budget) ∧
    (splitFrame frame budget = none → data.length ≤ 1 ∨ frame.Fits budget ∨
      ¬ (dataFrame stream offset false (data.take 1)).Fits budget) := by
  have hmax : maxVarint = 2 ^ 62 - 1 := rfl
  have hids : ∀ streamId, stream = some streamId → streamId ≤ maxVarint := fun streamId h => by
    have := hstream streamId h
    omega
  have hfits := fun fin n => @fits_iff stream offset data budget hids (by omega) fin n
  refine ⟨fun fits more => splitSearch_fuel fits more Nat.one_pos (by omega), ?_, ?_⟩
  · intro head tail h
    rw [splitFrame_eq] at h
    obtain ⟨n, hn, hparts⟩ := Option.map_eq_some_iff.mp h
    obtain ⟨rfl, rfl⟩ := Prod.mk.inj hparts
    obtain ⟨hpos, hlt⟩ := splitPoint_bounds hn
    have hlong : ¬ (dataFrame stream offset fin data).Fits budget := by
      rintro ⟨full, hfull, hle⟩
      rw [splitPoint, if_neg (by omega), hfull] at hn
      simp [hle] at hn
    obtain ⟨k, hk, hfound, habove⟩ := splitPoint_largest hids (by omega) fin (by omega) hlong
    rw [hk] at hn
    have hkn : k = n ∧ k ≠ 0 := by
      split at hn
      · cases hn
      · next hne => exact ⟨Option.some.inj hn, hne⟩
    obtain ⟨rfl, hne⟩ := hkn
    refine ⟨k, hpos, hlt, rfl, rfl, ?_, fun m fin' hm hle => ?_⟩
    · rw [hfits, Nat.min_eq_left (Nat.le_of_lt hlt)]
      exact hfound.resolve_left hne
    · rw [hfits, Nat.min_eq_left hle]
      exact Nat.not_le.mpr (habove m hm hle)
  · intro h
    rw [splitFrame_eq, Option.map_eq_none_iff] at h
    by_cases hlen : data.length ≤ 1
    · exact .inl hlen
    by_cases hwhole : (dataFrame stream offset fin data).Fits budget
    · exact .inr (.inl hwhole)
    obtain ⟨k, hk, -, habove⟩ := splitPoint_largest hids (by omega) fin (by omega) hwhole
    rw [hk] at h
    have hzero : k = 0 := by
      by_contra hne
      rw [if_neg hne] at h
      cases h
    refine .inr (.inr ?_)
    rw [hfits, Nat.min_eq_left (by omega)]
    exact Nat.not_le.mpr (habove 1 (by omega) (by omega))

/-- Ten bytes of CRYPTO data and room for eight: five of them go first. -/
theorem crypto_split_at_five :
    splitFrame (.crypto ⟨0, List.replicate 10 7⟩) 8 =
        some (.crypto ⟨0, List.replicate 5 7⟩, .crypto ⟨5, List.replicate 5 7⟩) ∧
      ¬ (Frame.crypto ⟨0, List.replicate 6 7⟩).Fits 8 := by
  have hsplit : splitFrame (.crypto ⟨0, List.replicate 10 7⟩) 8 =
      some (.crypto ⟨0, List.replicate 5 7⟩, .crypto ⟨5, List.replicate 5 7⟩) := by decide
  obtain ⟨n, -, -, hhead, -, -, hmax⟩ := (splitFrame_exact none 0 false (List.replicate 10 7) 8
    nofun (by decide)).2.1 _ _ hsplit
  have hn : n = 5 := by
    have hdata := congrArg (fun frame => match frame with
      | .crypto cf => cf.data.length
      | _ => 0) hhead
    simp [dataFrame] at hdata
    omega
  exact ⟨hsplit, hmax 6 false (by omega) (by decide)⟩

end Starfish.Quic
