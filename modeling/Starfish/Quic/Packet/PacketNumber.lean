import Starfish.Quic.Packet.Header

/-!
# Packet numbers survive truncation

The sender puts the last one to four bytes of a packet number on the wire, as many as
its distance to the largest acknowledged number asks for. The receiver completes them to
the number closest to the one it expects next. The two agree as long as the receiver is
not too far ahead of the packet, and no operation of the receiver overflows.
-/

namespace Starfish.Quic

/-! ## The decoder with its overflow checks -/

/-- A left shift of a 64-bit integer; a shift by 64 or more is an overflow. -/
def checkedShl (a n : Nat) : Option Nat := if n < 64 then some ((a <<< n) % 2 ^ 64) else none

/-- `decodePacketNumber` as the code computes it, on 64-bit integers: no result if an
operation overflows. -/
def decodePacketNumberChecked (truncatedPn pnLen largestPn : Nat) : Option Nat := do
  let pnWin ← checkedShl 1 (pnLen * 8)
  let pnHwin := pnWin / 2
  let pnMask ← checkedSub pnWin 1
  let expectedPn ← checkedAdd largestPn 1
  let candidate := (expectedPn &&& (u64Max - pnMask)) ||| truncatedPn
  let reach ← checkedAdd candidate pnHwin
  -- The second operand of the conjunction is evaluated only if the first one holds.
  let below ← if reach ≤ expectedPn then
      (checkedSub (2 ^ 62) pnWin).map fun top => decide (candidate < top)
    else some false
  if below then checkedAdd candidate pnWin
  else do
    let top ← checkedAdd expectedPn pnHwin
    if top < candidate ∧ pnWin ≤ candidate then checkedSub candidate pnWin else some candidate

theorem and_high_mask {n k : Nat} (hn : n < 2 ^ 64) (hk : k ≤ 64) :
    n &&& (u64Max - (2 ^ k - 1)) = n - n % 2 ^ k := by
  have hhigh : n - n % 2 ^ k = 2 ^ k * (n / 2 ^ k) := by
    have hdiv := Nat.div_add_mod n (2 ^ k)
    omega
  have hmask : u64Max - (2 ^ k - 1) = 2 ^ k * (2 ^ (64 - k) - 1) := by
    rw [Nat.mul_sub, ← Nat.pow_add, Nat.add_sub_cancel' hk, u64Max]
    omega
  rw [hhigh, hmask]
  apply Nat.eq_of_testBit_eq
  intro i
  simp only [Nat.testBit_and, Nat.testBit_two_pow_mul,
    Nat.testBit_div_two_pow]
  by_cases hi : k ≤ i
  · simp only [hi, Nat.sub_add_cancel hi]
    by_cases htop : i < 64
    · simp [show i - k < 64 - k by omega]
    · have hzero : n.testBit i = false :=
        Nat.testBit_lt_two_pow (Nat.lt_of_lt_of_le hn (Nat.pow_le_pow_right (by omega) (by omega)))
      simp [hzero]
  · simp [hi]

theorem candidate_eq_add (expected : Nat) {truncated k : Nat} (h : truncated < 2 ^ k) :
    (expected - expected % 2 ^ k) ||| truncated = expected - expected % 2 ^ k + truncated := by
  have hhigh : expected - expected % 2 ^ k = 2 ^ k * (expected / 2 ^ k) := by
    have hdiv := Nat.div_add_mod expected (2 ^ k)
    omega
  rw [hhigh, Nat.two_pow_add_eq_or_of_lt h]

theorem decodePacketNumberChecked_eq {truncated len largestPn : Nat} (hlen : len ≤ 4)
    (htruncated : truncated < 2 ^ (len * 8)) (hlargest : largestPn < 2 ^ 63) :
    decodePacketNumberChecked truncated len largestPn =
      some (decodePacketNumber truncated len largestPn) := by
  have hwin : 2 ^ (len * 8) ≤ 2 ^ 32 := Nat.pow_le_pow_right (by omega) (by omega)
  have hpos := Nat.two_pow_pos (len * 8)
  have hshl : checkedShl 1 (len * 8) = some (2 ^ (len * 8)) := by
    rw [checkedShl, if_pos (by omega), Nat.one_shiftLeft, Nat.mod_eq_of_lt (by omega)]
  have hcandidate := candidate_eq_add (largestPn + 1) htruncated
  unfold decodePacketNumberChecked decodePacketNumber
  simp only [Nat.one_shiftLeft, hshl, Option.bind_eq_bind, Option.bind_some, checkedSub_of_le hpos,
    checkedAdd_of_le (show largestPn + 1 ≤ u64Max by unfold u64Max; omega),
    and_high_mask (show largestPn + 1 < 2 ^ 64 by omega) (show len * 8 ≤ 64 by omega), hcandidate]
  have hbound : largestPn + 1 - (largestPn + 1) % 2 ^ (len * 8) + truncated ≤ 2 ^ 63 + 2 ^ 32 := by
    omega
  generalize largestPn + 1 - (largestPn + 1) % 2 ^ (len * 8) + truncated = candidate at *
  generalize 2 ^ (len * 8) = pnWin at *
  simp only [checkedAdd_of_le (show candidate + pnWin / 2 ≤ u64Max by unfold u64Max; omega),
    checkedAdd_of_le (show largestPn + 1 + pnWin / 2 ≤ u64Max by unfold u64Max; omega),
    checkedAdd_of_le (show candidate + pnWin ≤ u64Max by unfold u64Max; omega),
    checkedSub_of_le (show pnWin ≤ 2 ^ 62 by omega)]
  by_cases hreach : candidate + pnWin / 2 ≤ largestPn + 1
  · grind
  · grind [checkedSub_of_le]

/-! ## Round trip -/

theorem beNat_encodePacketNumber (pn largestAcked : Nat) :
    beNat (encodePacketNumber pn largestAcked).1 =
      pn % 2 ^ (packetNumberLen pn largestAcked * 8) := by
  have hrange := packetNumberLen_range pn largestAcked
  have hlen : ∀ len, 1 ≤ len → len ≤ 4 → beNat ((be32 pn).drop (4 - len)) = pn % 2 ^ (len * 8) := by
    intro len hpos hle
    obtain rfl | rfl | rfl | rfl : len = 1 ∨ len = 2 ∨ len = 3 ∨ len = 4 := by omega
    all_goals
      simp only [be32, Nat.sub_self, List.drop, beNat, List.foldl_cons, List.foldl_nil, lowByte_toNat]
      omega
  exact hlen _ hrange.1 hrange.2

/-- The decoder returns the one number with the received low bytes that is closer than half a
window to the expected one. -/
theorem decodePacketNumber_of_close (largestPn : Nat) {pn len : Nat} (hlen : 1 ≤ len ∧ len ≤ 4)
    (hpn : pn < 2 ^ 62) (hbelow : pn < largestPn + 1 + 2 ^ (len * 8 - 1))
    (habove : largestPn + 1 < pn + 2 ^ (len * 8 - 1)) :
    decodePacketNumber (pn % 2 ^ (len * 8)) len largestPn = pn := by
  have hmod : pn % 2 ^ (len * 8) < 2 ^ (len * 8) := Nat.mod_lt _ (Nat.two_pow_pos _)
  simp only [decodePacketNumber, Nat.one_shiftLeft, candidate_eq_add _ hmod]
  obtain rfl | rfl | rfl | rfl : len = 1 ∨ len = 2 ∨ len = 3 ∨ len = 4 := by omega
  all_goals
    split
    · omega
    · split <;> omega

theorem distance_lt_half_window {pn largestAcked : Nat} (h : pn - largestAcked < 2 ^ 31) :
    pn - largestAcked < 2 ^ (packetNumberLen pn largestAcked * 8 - 1) := by
  simp only [packetNumberLen]
  split
  · omega
  · split
    · omega
    · split <;> omega

/-- Every packet number survives truncation: from the bytes that the sender writes the
receiver recovers the number, and none of its operations overflows. -/
theorem packetNumber_survives_truncation {pn largestAcked largestPn : Nat} (hpn : pn < 2 ^ 62)
    (hacked : largestAcked ≤ pn) (hdistance : pn - largestAcked < 2 ^ 31)
    (hlargest : largestAcked ≤ largestPn)
    (hahead : largestPn + 2 ≤ pn + 2 ^ (8 * (encodePacketNumber pn largestAcked).2 - 1)) :
    decodePacketNumberChecked (beNat (encodePacketNumber pn largestAcked).1)
        (encodePacketNumber pn largestAcked).2 largestPn = some pn ∧
      decodePacketNumber (beNat (encodePacketNumber pn largestAcked).1)
        (encodePacketNumber pn largestAcked).2 largestPn = pn := by
  have hrange := packetNumberLen_range pn largestAcked
  have hdist := distance_lt_half_window hdistance
  rw [Nat.mul_comm] at hahead
  rw [beNat_encodePacketNumber]
  change largestPn + 2 ≤ pn + 2 ^ (packetNumberLen pn largestAcked * 8 - 1) at hahead
  change decodePacketNumberChecked _ (packetNumberLen pn largestAcked) largestPn = some pn ∧
    decodePacketNumber _ (packetNumberLen pn largestAcked) largestPn = pn
  generalize packetNumberLen pn largestAcked = len at *
  have hwindow : 2 ^ (len * 8 - 1) ≤ 2 ^ 31 := Nat.pow_le_pow_right (by omega) (by omega)
  have hdecode := decodePacketNumber_of_close largestPn hrange hpn (by omega) (by omega)
  rw [decodePacketNumberChecked_eq hrange.2 (Nat.mod_lt _ (Nat.two_pow_pos _)) (by omega), hdecode]
  exact ⟨rfl, rfl⟩

/-- The first packet of a connection, before anything was acknowledged or received, and a packet
that needs two bytes. -/
theorem first_packet_number_survives :
    decodePacketNumberChecked (beNat (encodePacketNumber 0 0).1) (encodePacketNumber 0 0).2 0 =
        some 0 ∧
      decodePacketNumberChecked (beNat (encodePacketNumber 0xac5c02 0xabe8b3).1)
        (encodePacketNumber 0xac5c02 0xabe8b3).2 0xac0000 = some 0xac5c02 :=
  ⟨(packetNumber_survives_truncation (by decide) (by decide) (by decide) (by decide)
      (by decide)).1,
    (packetNumber_survives_truncation (by decide) (by decide) (by decide) (by decide)
      (by decide)).1⟩

end Starfish.Quic
