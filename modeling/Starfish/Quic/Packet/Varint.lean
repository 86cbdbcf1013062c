import Starfish.Quic.Frame

/-!
# Variable-length integers

The encoding of RFC 9000, section 16: 1, 2, 4 or 8 bytes, with the length in the
two leading bits of the first byte.
-/

namespace Starfish.Quic

/-- The largest value that can be encoded. -/
def maxVarint : Nat := 2 ^ 62 - 1

def lowByte (value : Nat) : UInt8 := UInt8.ofNat value

def encodeVarint (value : Nat) : Except QuicError Bytes :=
  if maxVarint < value then
    .error (.invalidFrame s!"varint value {value} exceeds QUIC maximum {maxVarint}")
  else if value < 0x40 then .ok [lowByte value]
  else if value < 0x4000 then .ok [(0x40 : UInt8) ||| lowByte (value >>> 8), lowByte value]
  else if value < 0x40000000 then
    .ok [(0x80 : UInt8) ||| lowByte (value >>> 24), lowByte (value >>> 16), lowByte (value >>> 8),
      lowByte value]
  else
    .ok [(0xc0 : UInt8) ||| lowByte (value >>> 56), lowByte (value >>> 48), lowByte (value >>> 40),
      lowByte (value >>> 32), lowByte (value >>> 24), lowByte (value >>> 16),
      lowByte (value >>> 8), lowByte value]

def encodeVarints : List Nat → Except QuicError Bytes
  | [] => .ok []
  | value :: rest => do
      let head ← encodeVarint value
      let tail ← encodeVarints rest
      return head ++ tail

def beNat (bytes : Bytes) : Nat := bytes.foldl (fun acc b => acc * 256 + b.toNat) 0

def decodeVarint : Bytes → Except QuicError (Nat × Nat)
  | [] => .error .bufferTooSmall
  | first :: rest =>
    let len := 1 <<< (first >>> 6).toNat
    if rest.length + 1 < len then .error .bufferTooSmall
    else .ok (beNat ((first &&& 0x3f) :: rest.take (len - 1)), len)

variable {value : Nat} {buf : Bytes}

theorem decodeVarint_le {consumed : Nat} (h : decodeVarint buf = .ok (value, consumed)) :
    consumed ≤ buf.length := by
  cases buf with
  | nil => cases h
  | cons first rest =>
    grind [decodeVarint]

/-! ## Reading back -/

theorem lowByte_toNat (value : Nat) : (lowByte value).toNat = value % 256 :=
  UInt8.toNat_ofNat'

theorem firstByte_parts : ∀ tag < 4, ∀ x < 64,
    (((UInt8.ofNat (64 * tag) ||| UInt8.ofNat x) >>> 6).toNat = tag ∧
      ((UInt8.ofNat (64 * tag) ||| UInt8.ofNat x) &&& 0x3f).toNat = x) := by
  decide

/-- A first byte with tag `tag` and leading bits `x`, followed by the other bytes. -/
theorem decodeVarint_cons (tag : Nat) {x : Nat} (htag : tag < 4) (hx : x < 64) (tail : Bytes)
    (htail : tail.length + 1 = 1 <<< tag) (rest : Bytes) :
    decodeVarint ((UInt8.ofNat (64 * tag) ||| lowByte x) :: (tail ++ rest)) =
      .ok (tail.foldl (fun acc b => acc * 256 + b.toNat) x, tail.length + 1) := by
  obtain ⟨hlen, hbits⟩ := firstByte_parts tag htag x hx
  simp only [decodeVarint, lowByte, hlen, ← htail]
  rw [if_neg (by rw [List.length_append]; omega), Nat.add_sub_cancel, List.take_left]
  simp only [beNat, List.foldl_cons, hbits, Nat.zero_mul, Nat.zero_add]

variable {bytes : Bytes}

theorem decodeVarint_encodeVarint (h : encodeVarint value = .ok bytes) (rest : Bytes) :
    decodeVarint (bytes ++ rest) = .ok (value, bytes.length) := by
  unfold encodeVarint at h
  split at h
  · cases h
  · next hmax =>
    have hle : value < 2 ^ 62 := by
      unfold maxVarint at hmax
      omega
    split at h
    · next h1 =>
      cases h
      have hdecode := decodeVarint_cons 0 (by omega) h1 [] rfl rest
      simpa [lowByte] using hdecode
    · split at h
      · next h2 =>
        cases h
        have hx : value >>> 8 < 64 := by omega
        have hdecode := decodeVarint_cons 1 (by omega) hx [lowByte value] rfl rest
        simp only [List.foldl_cons, lowByte_toNat] at hdecode
        rw [show value >>> 8 * 256 + value % 256 = value by omega] at hdecode
        exact hdecode
      · split at h
        · next h4 =>
          cases h
          have hx : value >>> 24 < 64 := by omega
          have hdecode := decodeVarint_cons 2 (by omega) hx
            [lowByte (value >>> 16), lowByte (value >>> 8), lowByte value] rfl rest
          simp only [List.foldl_cons, lowByte_toNat] at hdecode
          rw [show ((value >>> 24 * 256 + value >>> 16 % 256) * 256 + value >>> 8 % 256) * 256 +
            value % 256 = value by omega] at hdecode
          exact hdecode
        · cases h
          have hx : value >>> 56 < 64 := by omega
          have hdecode := decodeVarint_cons 3 (by omega) hx
            [lowByte (value >>> 48), lowByte (value >>> 40), lowByte (value >>> 32),
              lowByte (value >>> 24), lowByte (value >>> 16), lowByte (value >>> 8),
              lowByte value] rfl rest
          simp only [List.foldl_cons, lowByte_toNat] at hdecode
          rw [show ((((((value >>> 56 * 256 + value >>> 48 % 256) * 256 + value >>> 40 % 256) * 256 +
            value >>> 32 % 256) * 256 + value >>> 24 % 256) * 256 + value >>> 16 % 256) * 256 +
            value >>> 8 % 256) * 256 + value % 256 = value by omega] at hdecode
          exact hdecode

/-! ## Bounds -/

theorem encodeVarint_of_le (h : value ≤ maxVarint) :
    ∃ bytes, encodeVarint value = .ok bytes := by
  unfold encodeVarint
  rw [if_neg (by omega)]
  split
  · exact ⟨_, rfl⟩
  · split
    · exact ⟨_, rfl⟩
    · split <;> exact ⟨_, rfl⟩

theorem le_of_encodeVarint (h : encodeVarint value = .ok bytes) :
    value ≤ maxVarint := by
  grind [encodeVarint]

theorem encodeVarint_length (h : encodeVarint value = .ok bytes) :
    1 ≤ bytes.length ∧ bytes.length ≤ 8 ∧ bytes.length ≤ value / 64 + 1 := by
  unfold encodeVarint at h
  split at h
  · cases h
  · split at h
    · cases h
      simp
    · split at h
      · cases h
        simp only [List.length_cons, List.length_nil]
        omega
      · split at h
        · cases h
          simp only [List.length_cons, List.length_nil]
          omega
        · cases h
          simp only [List.length_cons, List.length_nil]
          omega

theorem foldl_bytes_lt (x : Nat) (tail : Bytes) :
    tail.foldl (fun acc b => acc * 256 + b.toNat) x < (x + 1) * 256 ^ tail.length := by
  induction tail generalizing x with
  | nil => simp
  | cons b tail ih =>
    rw [List.foldl_cons, List.length_cons, Nat.pow_succ', ← Nat.mul_assoc]
    have hb := b.toNat_lt
    apply Nat.lt_of_lt_of_le (ih _)
    apply Nat.mul_le_mul_right
    omega

theorem firstByte_bounds (first : UInt8) :
    (first >>> 6).toNat < 4 ∧ (first &&& 0x3f).toNat < 64 := by
  have hfirst := first.toNat_lt
  have hand : first.toNat &&& 63 ≤ 63 := Nat.and_le_right
  simp only [UInt8.toNat_shiftRight, UInt8.toNat_and, UInt8.reduceToNat, Nat.reduceMod]
  omega

theorem taggedLen_range : ∀ tag < 4, 1 ≤ 1 <<< tag ∧ 1 <<< tag ≤ 8 := by
  decide

theorem decodeVarint_bounds {consumed : Nat} (h : decodeVarint buf = .ok (value, consumed)) :
    value ≤ maxVarint ∧ 1 ≤ consumed ∧ consumed ≤ buf.length := by
  have hle := decodeVarint_le h
  cases buf with
  | nil => cases h
  | cons first rest =>
    obtain ⟨htag, hbits⟩ := firstByte_bounds first
    simp only [decodeVarint] at h
    split at h
    · cases h
    · next hlen =>
      cases h
      have hlt := foldl_bytes_lt (first &&& 0x3f).toNat (rest.take (1 <<< (first >>> 6).toNat - 1))
      simp only [beNat, List.foldl_cons, Nat.zero_mul, Nat.zero_add]
      rw [List.length_take] at hlt
      generalize (first >>> 6).toNat = tag at *
      have hrange := taggedLen_range tag htag
      have hmin : min (1 <<< tag - 1) rest.length = 1 <<< tag - 1 := by omega
      rw [hmin] at hlt
      have hvalue : ((first &&& 0x3f).toNat + 1) * 256 ^ (1 <<< tag - 1) ≤ 64 * 256 ^ 7 := by
        apply Nat.mul_le_mul (by omega)
        apply Nat.pow_le_pow_right (by omega)
        omega
      unfold maxVarint
      omega

variable {r : Nat × Nat}

theorem decodeVarint_append (h : decodeVarint buf = .ok r) (more : Bytes) :
    decodeVarint (buf ++ more) = .ok r := by
  cases buf with
  | nil => cases h
  | cons first rest =>
    simp only [decodeVarint] at h ⊢
    grind

theorem decodeVarint_take (h : decodeVarint buf = .ok r) {n : Nat} (hn : r.2 ≤ n) :
    decodeVarint (buf.take n) = .ok r := by
  cases buf with
  | nil => cases h
  | cons first rest =>
    simp only [decodeVarint] at h
    split at h
    · cases h
    · next hlen =>
      cases h
      have hpos := (taggedLen_range _ (firstByte_bounds first).1).1
      cases n with
      | zero => omega
      | succ n =>
        simp only [List.take_succ_cons, decodeVarint, List.length_take, List.take_take]
        rw [if_neg (by omega), Nat.min_eq_left (by omega)]

theorem decodeVarint_len (h : decodeVarint buf = .ok r) : r.2 ≤ 8 := by
  cases buf with
  | nil => cases h
  | cons first rest =>
    grind [decodeVarint, taggedLen_range, firstByte_bounds]

theorem length_lt_of_decodeVarint {e : QuicError} (h : decodeVarint buf = .error e) :
    buf.length < 8 := by
  cases buf with
  | nil => simp
  | cons first rest =>
    grind [taggedLen_range, firstByte_bounds, decodeVarint]

/-! ## Several integers -/

variable {values : List Nat}

theorem except_bind_eq_ok {ε α β : Type} {x : Except ε α} {f : α → Except ε β} {b : β} :
    (x >>= f) = .ok b ↔ ∃ a, x = .ok a ∧ f a = .ok b := by
  cases x <;> simp [bind, Except.bind]

theorem encodeVarints_cons (h : encodeVarints (value :: values) = .ok bytes) :
    ∃ head tail, encodeVarint value = .ok head ∧ encodeVarints values = .ok tail ∧
      bytes = head ++ tail := by
  unfold encodeVarints at h
  obtain ⟨head, hhead, h⟩ := except_bind_eq_ok.mp h
  obtain ⟨tail, htail, h⟩ := except_bind_eq_ok.mp h
  cases h
  exact ⟨head, tail, hhead, htail, rfl⟩

theorem encodeVarints_of_le (h : ∀ value ∈ values, value ≤ maxVarint) :
    ∃ bytes, encodeVarints values = .ok bytes := by
  induction values with
  | nil => exact ⟨[], rfl⟩
  | cons value values ih =>
    obtain ⟨head, hhead⟩ := encodeVarint_of_le (h value List.mem_cons_self)
    obtain ⟨tail, htail⟩ := ih fun v hv => h v (List.mem_cons_of_mem value hv)
    refine ⟨head ++ tail, ?_⟩
    rw [encodeVarints, hhead, htail]
    rfl

theorem le_of_encodeVarints (h : encodeVarints values = .ok bytes) :
    ∀ value ∈ values, value ≤ maxVarint := by
  induction values generalizing bytes with
  | nil => exact fun _ hmem => (nomatch hmem)
  | cons value values ih =>
    grind [encodeVarints_cons, le_of_encodeVarint]

theorem encodeVarints_length (h : encodeVarints values = .ok bytes) :
    bytes.length ≤ 8 * values.length := by
  induction values generalizing bytes with
  | nil =>
    cases h
    exact Nat.le_refl _
  | cons value values ih =>
    obtain ⟨head, tail, hhead, htail, rfl⟩ := encodeVarints_cons h
    have hlen := encodeVarint_length hhead
    grind

theorem encodeVarints_append {more : List Nat} (h : encodeVarints (values ++ more) = .ok bytes) :
    ∃ head tail, encodeVarints values = .ok head ∧ encodeVarints more = .ok tail ∧
      bytes = head ++ tail := by
  induction values generalizing bytes with
  | nil => exact ⟨[], bytes, rfl, h, rfl⟩
  | cons value values ih =>
    obtain ⟨first, rest, hfirst, hrest, rfl⟩ := encodeVarints_cons h
    obtain ⟨head, tail, hhead, htail, rfl⟩ := ih hrest
    refine ⟨first ++ head, tail, ?_, htail, (List.append_assoc _ _ _).symm⟩
    rw [encodeVarints, hfirst, hhead]
    rfl

end Starfish.Quic
