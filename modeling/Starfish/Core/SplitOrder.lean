import Mathlib.Order.Compare
import Mathlib.Logic.Function.Iterate
import Mathlib.Data.Nat.Bitwise
import Mathlib.Data.Prod.Lex
import Mathlib.Data.Sum.Order

/-!
# Split order

The hash table keeps its entries in one list, ordered by their hashes with the bits reversed.
A bucket is a sentinel in that list, and its entries follow it: the leading bits of a reversed
word are the low bits of the word, which the bucket and its entries share.
-/

namespace Starfish.Core

abbrev Usize := BitVec 64

inductive EntryKind (K V : Type)
  | sentinel (bucket : Usize)
  | regular (hash : Usize) (key : K) (value : Option V)

structure SplitOrderedEntry (K V : Type) where
  splitKey : Usize
  kind : EntryKind K V

namespace SplitOrderedEntry

variable {K V : Type}

def newSentinel (bucket : Usize) : SplitOrderedEntry K V :=
  ⟨bucket.reverse &&& ~~~1, .sentinel bucket⟩

def newRegular (hash : Usize) (key : K) (value : V) : SplitOrderedEntry K V :=
  ⟨hash.reverse ||| 1, .regular hash key (some value)⟩

def newSearch (hash : Usize) (key : K) : SplitOrderedEntry K V :=
  ⟨hash.reverse ||| 1, .regular hash key none⟩

def eq [DecidableEq K] (a b : SplitOrderedEntry K V) : Bool :=
  if a.splitKey ≠ b.splitKey then false
  else
    match a.kind, b.kind with
    | .sentinel b₁, .sentinel b₂ => b₁ == b₂
    | .regular h₁ k₁ _, .regular h₂ k₂ _ => h₁ == h₂ && k₁ == k₂
    | _, _ => false

/-- Sentinels before regular entries, then by hash, then by key. -/
def cmpKind [LinearOrder K] : EntryKind K V → EntryKind K V → Ordering
  | .sentinel _, .regular .. => .lt
  | .regular .., .sentinel _ => .gt
  | .sentinel b₁, .sentinel b₂ => compare b₁.toNat b₂.toNat
  | .regular h₁ k₁ _, .regular h₂ k₂ _ => (compare h₁.toNat h₂.toNat).then (compare k₁ k₂)

def cmp [LinearOrder K] (a b : SplitOrderedEntry K V) : Ordering :=
  match compare a.splitKey.toNat b.splitKey.toNat with
  | .eq => cmpKind a.kind b.kind
  | ord => ord

end SplitOrderedEntry

def leadingZeros (x : Usize) : Nat := if x = 0 then 64 else 63 - x.toNat.log2

def getParentBucket (bucket : Usize) : Usize :=
  if bucket = 0 then 0
  else
    let highestBit := (1 : Usize) <<< (64 - 1 - leadingZeros bucket)
    bucket &&& ~~~highestBit

def bucketOf (hash : Usize) (k : Nat) : Usize := BitVec.ofNat 64 (hash.toNat % 2 ^ k)

/-! ## Reversed words -/

variable {x : Usize} {k : Nat}

theorem testBit_reverse (x : Usize) (i : Nat) :
    x.reverse.toNat.testBit i = (decide (i < 64) && x.toNat.testBit (63 - i)) := by
  rw [BitVec.testBit_toNat, BitVec.getLsbD_reverse, BitVec.getMsbD_eq_getLsbD,
    BitVec.testBit_toNat]

theorem toNat_bucketOf (hash : Usize) (k : Nat) :
    (bucketOf hash k).toNat = hash.toNat % 2 ^ k := by
  exact Nat.mod_eq_of_lt (Nat.lt_of_le_of_lt (Nat.mod_le _ _) hash.isLt)

theorem reverse_div (hk : k ≤ 64) (x : Usize) :
    (bucketOf x k).reverse.toNat / 2 ^ (64 - k) = x.reverse.toNat / 2 ^ (64 - k) := by
  apply Nat.eq_of_testBit_eq
  intro i
  simp only [Nat.testBit_div_two_pow, testBit_reverse, toNat_bucketOf]
  by_cases hi : i + (64 - k) < 64
  · have hlow : 63 - (i + (64 - k)) < k := by omega
    simp [hlow]
  · simp [hi]

theorem reverse_mod (hk : k ≤ 64) (hx : x.toNat < 2 ^ k) : x.reverse.toNat % 2 ^ (64 - k) = 0 := by
  apply Nat.eq_of_testBit_eq
  intro i
  rw [Nat.testBit_mod_two_pow, testBit_reverse, Nat.zero_testBit]
  by_cases hi : i < 64 - k
  · have hle : 2 ^ k ≤ 2 ^ (63 - i) := Nat.pow_le_pow_right (by decide) (by omega)
    simp [Nat.testBit_lt_two_pow (Nat.lt_of_lt_of_le hx hle)]
  · simp [hi]

theorem testBit_and_not_one (x : Usize) (i : Nat) :
    (x &&& ~~~1).toNat.testBit i = (decide (i ≠ 0) && x.toNat.testBit i) := by
  rw [BitVec.testBit_toNat, BitVec.testBit_toNat]
  cases i with
  | zero => simp
  | succ i =>
    have hone : BitVec.getLsbD (1 : Usize) (i + 1) = false := by simp
    rw [BitVec.getLsbD_and, BitVec.getLsbD_not, hone]
    by_cases hi : i + 1 < 64
    · simp [hi]
    · simp [BitVec.getLsbD_of_ge x (i + 1) (by omega)]

theorem toNat_and_not_one (x : Usize) : (x &&& ~~~1).toNat = x.toNat / 2 * 2 := by
  apply Nat.eq_of_testBit_eq
  intro i
  rw [testBit_and_not_one]
  cases i with
  | zero => simp
  | succ i => simp [Nat.testBit_succ]

theorem toNat_or_one (x : Usize) : (x ||| 1).toNat = x.toNat / 2 * 2 + 1 := by
  rw [BitVec.toNat_or]
  apply Nat.eq_of_testBit_eq
  intro i
  rw [Nat.testBit_or]
  cases i with
  | zero => simp
  | succ i =>
    have hhalf : (x.toNat / 2 * 2 + 1) / 2 = x.toNat / 2 := by omega
    simp [Nat.testBit_succ, hhalf]

theorem sentinel_before_entries (hk : k < 64) (hash : Usize) :
    ((bucketOf hash k).reverse &&& ~~~1).toNat < (hash.reverse ||| 1).toNat ∧
      ∀ bucket : Usize, bucket.toNat < 2 ^ k →
        ((bucketOf hash k).reverse &&& ~~~1).toNat < (bucket.reverse &&& ~~~1).toNat →
        (hash.reverse ||| 1).toNat ≤ (bucket.reverse &&& ~~~1).toNat := by
  have hwidth : 2 ^ (64 - k) = 2 * 2 ^ (63 - k) := by
    rw [show 64 - k = 63 - k + 1 by omega, Nat.pow_succ, Nat.mul_comm]
  have hpos : 0 < 2 ^ (63 - k) := Nat.two_pow_pos _
  -- the keys of buckets are multiples of the width, so clearing the last bit changes nothing
  have hkey : ∀ bucket : Usize, bucket.toNat < 2 ^ k → (bucket.reverse &&& ~~~1).toNat =
      2 * (2 ^ (63 - k) * (bucket.reverse.toNat / (2 * 2 ^ (63 - k)))) := by
    intro bucket hbucket
    have hmul := Nat.mul_div_cancel' (Nat.dvd_of_mod_eq_zero (reverse_mod (by omega) hbucket))
    rw [hwidth, Nat.mul_assoc] at hmul
    rw [toNat_and_not_one]
    omega
  have hbucket : (bucketOf hash k).toNat < 2 ^ k := by
    rw [toNat_bucketOf]
    exact Nat.mod_lt _ (Nat.two_pow_pos k)
  have hleading := reverse_div (by omega : k ≤ 64) hash
  have hentry := Nat.div_add_mod hash.reverse.toNat (2 * 2 ^ (63 - k))
  have hrest := Nat.mod_lt hash.reverse.toNat (by omega : 0 < 2 * 2 ^ (63 - k))
  rw [Nat.mul_assoc] at hentry
  rw [hwidth] at hleading
  rw [hkey _ hbucket, hleading, toNat_or_one]
  refine ⟨by omega, fun bucket hother hlt => ?_⟩
  rw [hkey _ hother] at hlt ⊢
  have hquot : hash.reverse.toNat / (2 * 2 ^ (63 - k)) + 1 ≤
      bucket.reverse.toNat / (2 * 2 ^ (63 - k)) :=
    Nat.lt_of_mul_lt_mul_left (Nat.lt_of_mul_lt_mul_left hlt)
  have hstep := Nat.mul_le_mul_left (2 ^ (63 - k)) hquot
  rw [Nat.mul_add, Nat.mul_one] at hstep
  omega

theorem sentinelKey_inj {a b : Usize} (ha : a.toNat < 2 ^ 63) (hb : b.toNat < 2 ^ 63)
    (h : (a.reverse &&& ~~~1).toNat = (b.reverse &&& ~~~1).toNat) : a = b := by
  have hmodA := reverse_mod (k := 63) (by decide) ha
  have hmodB := reverse_mod (k := 63) (by decide) hb
  rw [toNat_and_not_one, toNat_and_not_one] at h
  have hreverse : a.reverse = b.reverse := BitVec.eq_of_toNat_eq (by omega)
  rw [← BitVec.reverse_reverse_eq (x := a), hreverse, BitVec.reverse_reverse_eq]

/-! ## Parents -/

variable {bucket : Usize}

theorem log2_lt (hne : bucket ≠ 0) : bucket.toNat.log2 < 64 := by
  have hne' : bucket.toNat ≠ 0 := fun h => hne (BitVec.eq_of_toNat_eq h)
  exact (Nat.log2_lt hne').mpr bucket.isLt

theorem testBit_getParentBucket (hne : bucket ≠ 0) (i : Nat) :
    (getParentBucket bucket).toNat.testBit i =
      (bucket.toNat.testBit i && decide (i ≠ bucket.toNat.log2)) := by
  have hlog := log2_lt hne
  have hshift : 64 - 1 - leadingZeros bucket = bucket.toNat.log2 := by
    rw [leadingZeros, if_neg hne]
    omega
  simp only [getParentBucket, if_neg hne, hshift, BitVec.testBit_toNat]
  by_cases hi : i < 64
  · have hbit : (decide (i < bucket.toNat.log2) || !decide (i - bucket.toNat.log2 = 0)) =
        !decide (i = bucket.toNat.log2) := by
      rw [Bool.eq_iff_iff]
      simp only [Bool.or_eq_true, decide_eq_true_eq, Bool.not_eq_true', decide_eq_false_iff_not]
      omega
    simp [hi, hbit]
  · simp [BitVec.getLsbD_of_ge bucket i (by omega)]

theorem parent_sentinel_lt (hne : bucket ≠ 0) (hlt : bucket.toNat < 2 ^ 63) :
    ((getParentBucket bucket).reverse &&& ~~~1).toNat < (bucket.reverse &&& ~~~1).toNat := by
  have hne' : bucket.toNat ≠ 0 := fun h => hne (BitVec.eq_of_toNat_eq h)
  have hlog : bucket.toNat.log2 < 63 := (Nat.log2_lt hne').mpr hlt
  have hback : 63 - (63 - bucket.toNat.log2) = bucket.toNat.log2 := by omega
  apply Nat.lt_of_testBit (63 - bucket.toNat.log2)
  · simp only [testBit_and_not_one, testBit_reverse, testBit_getParentBucket hne, hback]
    simp
  · simp only [testBit_and_not_one, testBit_reverse, hback, Nat.testBit_log2 hne']
    simp only [Bool.and_true, Bool.and_eq_true, decide_eq_true_eq]
    omega
  · intro j hj
    simp only [testBit_and_not_one, testBit_reverse, testBit_getParentBucket hne]
    by_cases hj64 : j < 64
    · have hother : 63 - j ≠ bucket.toNat.log2 := by omega
      simp [hother]
    · simp [hj64]

theorem parent_sentinel_eq (hne : bucket ≠ 0) (hge : 2 ^ 63 ≤ bucket.toNat) :
    (getParentBucket bucket).reverse &&& ~~~1 = bucket.reverse &&& ~~~1 := by
  have hlog : bucket.toNat.log2 = 63 := by
    have hlt := log2_lt hne
    have hle := (Nat.le_log2 (fun h => hne (BitVec.eq_of_toNat_eq h))).mpr hge
    omega
  apply BitVec.eq_of_toNat_eq
  apply Nat.eq_of_testBit_eq
  intro i
  simp only [testBit_and_not_one, testBit_reverse, testBit_getParentBucket hne, hlog]
  by_cases hi : i = 0
  · simp [hi]
  · have hother : 63 - i ≠ 63 := by omega
    simp [hother]

theorem getParentBucket_lt (hne : bucket ≠ 0) : (getParentBucket bucket).toNat < bucket.toNat := by
  have hne' : bucket.toNat ≠ 0 := fun h => hne (BitVec.eq_of_toNat_eq h)
  apply Nat.lt_of_testBit bucket.toNat.log2
  · simp [testBit_getParentBucket hne]
  · exact Nat.testBit_log2 hne'
  · intro j hj
    simp [testBit_getParentBucket hne, Nat.ne_of_gt hj]

theorem parents_reach_zero (bucket : Usize) : ∃ n, getParentBucket^[n] bucket = 0 := by
  induction hsize : bucket.toNat using Nat.strong_induction_on generalizing bucket with
  | _ size ih =>
    by_cases hne : bucket = 0
    · exact ⟨0, hne⟩
    · obtain ⟨n, hn⟩ := ih _ (hsize ▸ getParentBucket_lt hne) _ rfl
      exact ⟨n + 1, hn⟩

/-! ## The order of entries -/

namespace SplitOrderedEntry

variable {K V : Type} [LinearOrder K]

/-- What the comparison looks at, in a linear order. -/
def EntryKind.rank : EntryKind K V → Nat ⊕ₗ (Nat ×ₗ K)
  | .sentinel bucket => Sum.inlₗ bucket.toNat
  | .regular hash key _ => Sum.inrₗ (toLex (hash.toNat, key))

def rank (entry : SplitOrderedEntry K V) : Nat ×ₗ (Nat ⊕ₗ (Nat ×ₗ K)) :=
  toLex (entry.splitKey.toNat, EntryKind.rank entry.kind)

theorem compare_compares {α : Type} [LinearOrder α] (a b : α) : (compare a b).Compares a b :=
  cmp_eq_compare a b ▸ cmp_compares a b

theorem then_compares {α β : Type} [LinearOrder α] [LinearOrder β] {a₁ b₁ : α} {a₂ b₂ : β}
    {first second : Ordering} (hfirst : first.Compares a₁ b₁) (hsecond : second.Compares a₂ b₂) :
    (first.then second).Compares (toLex (a₁, a₂)) (toLex (b₁, b₂)) := by
  cases first with
  | lt | gt => exact Prod.Lex.toLex_lt_toLex.mpr (.inl hfirst)
  | eq =>
    have heq : a₁ = b₁ := hfirst
    subst heq
    cases second with
    | lt | gt => exact Prod.Lex.toLex_lt_toLex.mpr (.inr ⟨rfl, hsecond⟩)
    | eq => exact congrArg (fun second => toLex (a₁, second)) hsecond

theorem cmpKind_compares (a b : EntryKind K V) :
    (cmpKind a b).Compares (EntryKind.rank a) (EntryKind.rank b) := by
  cases a with
  | sentinel b₁ =>
    cases b with
    | sentinel b₂ =>
      have h := compare_compares b₁.toNat b₂.toNat
      rw [cmpKind]
      revert h
      cases compare b₁.toNat b₂.toNat
      · exact Sum.Lex.inl_lt_inl_iff.mpr
      · exact congrArg _
      · exact Sum.Lex.inl_lt_inl_iff.mpr
    | regular => exact Sum.Lex.inl_lt_inr _ _
  | regular h₁ k₁ =>
    cases b with
    | sentinel => exact Sum.Lex.inl_lt_inr _ _
    | regular h₂ k₂ =>
      have h := then_compares (compare_compares h₁.toNat h₂.toNat) (compare_compares k₁ k₂)
      rw [cmpKind]
      revert h
      cases (compare h₁.toNat h₂.toNat).then (compare k₁ k₂)
      · exact Sum.Lex.inr_lt_inr_iff.mpr
      · exact congrArg _
      · exact Sum.Lex.inr_lt_inr_iff.mpr

theorem cmp_compares_rank (a b : SplitOrderedEntry K V) : (cmp a b).Compares (rank a) (rank b) := by
  have h := then_compares (compare_compares a.splitKey.toNat b.splitKey.toNat)
    (cmpKind_compares a.kind b.kind)
  rw [cmp]
  revert h
  cases compare a.splitKey.toNat b.splitKey.toNat <;> exact id

theorem eq_iff_rank_eq (a b : SplitOrderedEntry K V) : eq a b = true ↔ rank a = rank b := by
  obtain ⟨aKey, aKind⟩ := a
  obtain ⟨bKey, bKind⟩ := b
  by_cases hkey : aKey = bKey
  · cases aKind <;> cases bKind <;>
      simp [eq, rank, EntryKind.rank, BitVec.toNat_inj]
  · have hne : aKey.toNat ≠ bKey.toNat := fun h => hkey (BitVec.eq_of_toNat_eq h)
    simp [eq, rank, hkey, hne]

theorem cmp_lt_of_splitKey_lt {a b : SplitOrderedEntry K V}
    (h : a.splitKey.toNat < b.splitKey.toNat) : cmp a b = .lt := by
  rw [cmp, compare_lt_iff_lt.mpr h]

theorem splitKey_le_of_cmp_lt {a b : SplitOrderedEntry K V} (h : cmp a b = .lt) :
    a.splitKey.toNat ≤ b.splitKey.toNat := by
  apply Nat.le_of_not_lt
  intro hlt
  rw [cmp, compare_gt_iff_gt.mpr hlt] at h
  cases h

/-- The list of a table: a bucket's sentinel comes before the bucket's entries with no other
sentinel of the table between them, a bucket comes after its parent, and the comparison that the
list is kept by is a total order with the equality of entries. -/
theorem split_order_containment :
    (∀ (hash : Usize) (k : Nat) (key : K) (value : V), k ≤ 16 →
      let sentinel : SplitOrderedEntry K V := newSentinel (bucketOf hash k)
      let entry := newRegular hash key value
      sentinel.splitKey.toNat < entry.splitKey.toNat ∧ cmp sentinel entry = .lt ∧
      cmp sentinel (newSearch hash key) = .lt ∧
      ∀ other : Usize, other.toNat < 2 ^ k → other ≠ bucketOf hash k →
        ¬ (cmp sentinel (newSentinel other) = .lt ∧ cmp (newSentinel other) entry = .lt)) ∧
    (∀ bucket : Usize, bucket ≠ 0 →
      cmp (newSentinel (getParentBucket bucket) : SplitOrderedEntry K V) (newSentinel bucket) =
        .lt ∧
      (bucket.toNat < 2 ^ 63 →
        (newSentinel (getParentBucket bucket) : SplitOrderedEntry K V).splitKey.toNat <
          (newSentinel bucket : SplitOrderedEntry K V).splitKey.toNat) ∧
      ∃ n, getParentBucket^[n] bucket = 0) ∧
    (∀ a b : SplitOrderedEntry K V, cmp b a = (cmp a b).swap ∧ (cmp a b = .eq ↔ eq a b = true)) ∧
    (∀ a b c : SplitOrderedEntry K V, cmp a b ≠ .gt → cmp b c ≠ .gt → cmp a c ≠ .gt) ∧
    ∀ (h₁ h₂ : Usize) (k₁ k₂ : K) (v₁ v₂ : V), h₁ ≠ h₂ →
      cmp (newRegular h₁ k₁ v₁) (newRegular h₂ k₂ v₂) ≠ .eq := by
  refine ⟨?_, ?_, ?_, ?_, ?_⟩
  · intro hash k key value hk sentinel entry
    obtain ⟨hlt, hother⟩ := sentinel_before_entries (by omega : k < 64) hash
    refine ⟨hlt, cmp_lt_of_splitKey_lt hlt, cmp_lt_of_splitKey_lt hlt, ?_⟩
    rintro other hbound hne ⟨hafter, hbefore⟩
    have hpow : 2 ^ k ≤ 2 ^ 63 := Nat.pow_le_pow_right (by decide) (by omega)
    have hbucket : (bucketOf hash k).toNat < 2 ^ k := by
      rw [toNat_bucketOf]
      exact Nat.mod_lt _ (Nat.two_pow_pos k)
    have hkeys : sentinel.splitKey.toNat <
        (newSentinel other : SplitOrderedEntry K V).splitKey.toNat := by
      apply Nat.lt_of_le_of_ne (splitKey_le_of_cmp_lt hafter)
      intro heq
      exact hne (sentinelKey_inj (by omega) (by omega) heq).symm
    have hend := hother other hbound hkeys
    have hparity : (newSentinel other : SplitOrderedEntry K V).splitKey.toNat ≠
        entry.splitKey.toNat := by
      simp only [newSentinel, entry, newRegular, toNat_and_not_one, toNat_or_one]
      omega
    have hle := splitKey_le_of_cmp_lt hbefore
    exact hparity (Nat.le_antisymm hle hend)
  · intro bucket hne
    refine ⟨?_, parent_sentinel_lt hne, parents_reach_zero bucket⟩
    by_cases hlt : bucket.toNat < 2 ^ 63
    · exact cmp_lt_of_splitKey_lt (parent_sentinel_lt hne hlt)
    · -- the last bit of such a bucket is lost in its key, and the buckets decide
      rw [cmp, newSentinel, newSentinel, parent_sentinel_eq hne (by omega)]
      rw [compare_eq_iff_eq.mpr rfl]
      exact compare_lt_iff_lt.mpr (getParentBucket_lt hne)
  · intro a b
    have hab := cmp_compares_rank a b
    refine ⟨?_, ?_⟩
    · exact (Ordering.compares_swap.mpr hab).inj (cmp_compares_rank b a) |>.symm
    · rw [hab.eq_eq, eq_iff_rank_eq]
  · intro a b c hab hbc
    rw [ne_eq, (cmp_compares_rank _ _).eq_gt, not_lt] at hab hbc ⊢
    exact hab.trans hbc
  · intro h₁ h₂ k₁ k₂ v₁ v₂ hne
    rw [ne_eq, (cmp_compares_rank _ _).eq_eq, ← eq_iff_rank_eq]
    have hhash : (h₁ == h₂) = false := beq_false_of_ne hne
    simp [eq, newRegular, hhash]

theorem entry_follows_bucket_one : (2 : Nat) ≤ 16 ∧ bucketOf 13 2 = 1 ∧
    cmp (newSentinel (bucketOf 13 2)) (newRegular (13 : Usize) (7 : Nat) "seven") = .lt :=
  ⟨by decide, by decide,
    (split_order_containment.1 13 2 7 "seven" (by decide)).2.1⟩

end SplitOrderedEntry

end Starfish.Core
