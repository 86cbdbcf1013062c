import Starfish.Lib.OrdMap
import Mathlib.Algebra.BigOperators.Group.Finset.Basic
import Mathlib.Algebra.BigOperators.Intervals

/-!
# Sums over ordered maps

The sum of a quantity over all entries of a map, and how it changes with the
map. Two maps are compared through the contribution of each key.
-/

namespace Starfish.OrdMap

universe u

variable {V : Type u}

/-- The sum of `f` over the entries. -/
def total (m : OrdMap V) (f : Nat → V → Nat) : Nat := (m.entries.map fun e => f e.1 e.2).sum

/-- What a key contributes to the sum; an absent key contributes nothing. -/
def contribution (m : OrdMap V) (f : Nat → V → Nat) (k : Nat) : Nat :=
  ((m.find? k).map (f k)).getD 0

private theorem sum_lookup (f : Nat → V → Nat) {l : List (Nat × V)} {n : Nat}
    (hl : l.Pairwise fun a b => a.1 < b.1) (hn : ∀ e ∈ l, e.1 < n) :
    ∑ k ∈ Finset.range n, ((l.lookup k).map (f k)).getD 0 =
      (l.map fun e => f e.1 e.2).sum := by
  induction l with
  | nil => simp
  | cons x rest ih =>
    obtain ⟨key, v⟩ := x
    obtain ⟨hx, hrest⟩ := List.pairwise_cons.mp hl
    have hkey : rest.lookup key = none := by
      grind
    have hsplit : ∀ k, (((((key, v) :: rest).lookup k).map (f k)).getD 0) =
        (if k = key then f key v else 0) + ((rest.lookup k).map (f k)).getD 0 := by
      intro k
      by_cases hk : k = key
      · subst hk
        simp [hkey]
      · have hb : (k == key) = false := by simpa using hk
        simp [List.lookup_cons, hb, hk]
    rw [Finset.sum_congr rfl fun k _ => hsplit k, Finset.sum_add_distrib,
      ih hrest fun e he => hn e (List.mem_cons_of_mem _ he), Finset.sum_ite_eq' _ key fun _ => f key v]
    simp [hn (key, v) (by simp)]

theorem exists_key_bound (l : List (Nat × V)) : ∃ n, ∀ e ∈ l, e.1 < n := by
  induction l with
  | nil => exact ⟨0, by simp⟩
  | cons x rest ih =>
    obtain ⟨n, hn⟩ := ih
    refine ⟨max n (x.1 + 1), ?_⟩
    grind

theorem total_eq_sum (m : OrdMap V) (f : Nat → V → Nat) {n : Nat} (hn : ∀ e ∈ m.entries, e.1 < n) :
    m.total f = ∑ k ∈ Finset.range n, m.contribution f k :=
  (sum_lookup f m.sorted hn).symm

variable {m : OrdMap V} {f : Nat → V → Nat}

/-- Maps whose keys contribute the same have the same sum. -/
theorem total_congr {W : Type u} {m' : OrdMap W} {f' : Nat → W → Nat}
    (h : ∀ k, m'.contribution f' k = m.contribution f k) :
    m'.total f' = m.total f := by
  obtain ⟨n, hn⟩ := exists_key_bound m.entries
  obtain ⟨n', hn'⟩ := exists_key_bound m'.entries
  rw [total_eq_sum m f (n := max n n') fun e he => Nat.lt_of_lt_of_le (hn e he) (le_max_left _ _),
    total_eq_sum m' f' (n := max n n') fun e he =>
      Nat.lt_of_lt_of_le (hn' e he) (le_max_right _ _)]
  exact Finset.sum_congr rfl fun k _ => h k

/-- If only one key contributes differently, the sums differ by its contributions. -/
theorem total_update {m' : OrdMap V} (k : Nat)
    (h : ∀ j, j ≠ k → m'.contribution f j = m.contribution f j) :
    m'.total f + m.contribution f k = m.total f + m'.contribution f k := by
  obtain ⟨n, hn⟩ := exists_key_bound m.entries
  obtain ⟨n', hn'⟩ := exists_key_bound m'.entries
  have hm := total_eq_sum m f (n := max (max n n') (k + 1)) fun e he => by
    have := hn e he
    omega
  have hm' := total_eq_sum m' f (n := max (max n n') (k + 1)) fun e he => by
    have := hn' e he
    omega
  have hrest : ∑ j ∈ (Finset.range (max (max n n') (k + 1))).erase k, m'.contribution f j =
      ∑ j ∈ (Finset.range (max (max n n') (k + 1))).erase k, m.contribution f j :=
    Finset.sum_congr rfl fun j hj => h j (Finset.ne_of_mem_erase hj)
  grind [Finset.add_sum_erase]

/-- Sums of pointwise ordered quantities agree only if the quantities do. -/
theorem total_eq_iff {g : Nat → V → Nat} (h : ∀ e ∈ m.entries, f e.1 e.2 ≤ g e.1 e.2) :
    m.total f = m.total g ↔ ∀ e ∈ m.entries, f e.1 e.2 = g e.1 e.2 := by
  unfold total
  generalize m.entries = l at h
  have key : ∀ l : List (Nat × V), (∀ e ∈ l, f e.1 e.2 ≤ g e.1 e.2) →
      (l.map fun e => f e.1 e.2).sum ≤ (l.map fun e => g e.1 e.2).sum := by
    intro l hl
    induction l with
    | nil => simp
    | cons x rest ih =>
      grind
  induction l with
  | nil => simp
  | cons x rest ih =>
    have hx := h x (by simp)
    have hrest := key rest fun e he => h e (by simp [he])
    have hiff := ih fun e he => h e (by simp [he])
    simp only [List.map_cons, List.sum_cons]
    constructor
    · intro hsum
      exact List.forall_mem_cons.mpr ⟨by omega, hiff.mp (by omega)⟩
    · intro hall
      have hhead := hall x (by simp)
      have htail := hiff.mpr fun e he => hall e (by simp [he])
      omega

end Starfish.OrdMap
