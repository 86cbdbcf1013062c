import Mathlib.Data.Finset.Card
import Mathlib.Data.List.Pairwise

/-!
# Sets of numbers as descending runs

A finite set of numbers is the union of its maximal runs of consecutive numbers. A list
of ranges that descends, where each range is apart from the next one by a number that is
in neither, lists exactly these runs: as many as the set has numbers without successor.
-/

namespace Starfish.Runs

/-- A number lies in one of the ranges. -/
def Covers (ranges : List (Nat × Nat)) (n : Nat) : Prop :=
  ∃ r ∈ ranges, r.1 ≤ n ∧ n ≤ r.2

instance (ranges : List (Nat × Nat)) (n : Nat) : Decidable (Covers ranges n) :=
  inferInstanceAs (Decidable (∃ r ∈ ranges, r.1 ≤ n ∧ n ≤ r.2))

/-- Nonempty ranges, the larger numbers first, none of them adjacent to the next one. -/
structure Normal (ranges : List (Nat × Nat)) : Prop where
  start_le_stop : ∀ r ∈ ranges, r.1 ≤ r.2
  apart : ranges.Pairwise fun r s => s.2 + 1 < r.1

variable {ranges upper lower : List (Nat × Nat)} {n : Nat}

@[simp] theorem not_covers_nil : ¬ Covers [] n := by
  rintro ⟨_, hmem, _⟩
  cases hmem

@[simp] theorem covers_cons {r : Nat × Nat} :
    Covers (r :: ranges) n ↔ (r.1 ≤ n ∧ n ≤ r.2) ∨ Covers ranges n := by
  simp [Covers]

@[simp] theorem covers_append : Covers (upper ++ lower) n ↔ Covers upper n ∨ Covers lower n := by
  simp [Covers, or_and_right, exists_or]

theorem normal_nil : Normal [] :=
  ⟨fun _ hmem => (nomatch hmem), List.Pairwise.nil⟩

namespace Normal

theorem sublist {part : List (Nat × Nat)} (h : Normal ranges) (hsub : part.Sublist ranges) :
    Normal part :=
  ⟨fun r hr => h.start_le_stop r (hsub.subset hr), h.apart.sublist hsub⟩

theorem take (h : Normal ranges) (k : Nat) : Normal (ranges.take k) :=
  h.sublist (List.take_sublist k ranges)

/-- A range fits between two parts that it is apart from. -/
theorem insert {r : Nat × Nat} (hupper : Normal upper) (hlower : Normal lower) (hr : r.1 ≤ r.2)
    (habove : ∀ a ∈ upper, r.2 + 1 < a.1) (hbelow : ∀ b ∈ lower, b.2 + 1 < r.1) :
    Normal (upper ++ r :: lower) := by
  constructor
  · grind [cases Normal]
  · rw [List.pairwise_append]
    refine ⟨hupper.apart, List.pairwise_cons.mpr ⟨hbelow, hlower.apart⟩, fun a ha b hb => ?_⟩
    grind

/-! ## The largest number -/

/-- The first range ends with the largest number. -/
theorem le_head {first : Nat × Nat} (h : Normal (first :: ranges)) (hn : Covers (first :: ranges) n) :
    n ≤ first.2 := by
  obtain ⟨r, hmem, -, hstop⟩ := hn
  have hfirst := h.start_le_stop first List.mem_cons_self
  obtain rfl | hrest := List.mem_cons.mp hmem
  · exact hstop
  · have hgap := (List.pairwise_cons.mp h.apart).1 r hrest
    omega

/-- The first range is never cut off. -/
theorem exists_ge_take (h : Normal ranges) {k : Nat} (hk : 0 < k) (hn : Covers ranges n) :
    ∃ m, Covers (ranges.take k) m ∧ n ≤ m := by
  cases ranges with
  | nil => exact absurd hn not_covers_nil
  | cons first rest =>
    obtain ⟨k, rfl⟩ : ∃ j, k = j + 1 := ⟨k - 1, by omega⟩
    refine ⟨first.2, ?_, h.le_head hn⟩
    rw [List.take_succ_cons, covers_cons]
    exact .inl ⟨h.start_le_stop first List.mem_cons_self, Nat.le_refl _⟩

/-! ## As many ranges as runs -/

/-- Of two ranges one is above the other. -/
theorem apart_of_ne (h : Normal ranges) {r s : Nat × Nat} (hr : r ∈ ranges) (hs : s ∈ ranges)
    (hne : r ≠ s) : s.2 + 1 < r.1 ∨ r.2 + 1 < s.1 := by
  have hsymm : Std.Symm fun r s : Nat × Nat => s.2 + 1 < r.1 ∨ r.2 + 1 < s.1 :=
    ⟨fun _ _ hor => hor.symm⟩
  have heither : ranges.Pairwise fun r s => s.2 + 1 < r.1 ∨ r.2 + 1 < s.1 := h.apart.imp Or.inl
  exact heither.forall hr hs hne

/-- The ends of the ranges are the numbers whose successor is missing. -/
theorem mem_stops_iff (h : Normal ranges) :
    n ∈ ranges.map Prod.snd ↔ Covers ranges n ∧ ¬ Covers ranges (n + 1) := by
  constructor
  · intro hn
    obtain ⟨r, hr, rfl⟩ := List.mem_map.mp hn
    have hle := h.start_le_stop r hr
    refine ⟨⟨r, hr, hle, Nat.le_refl _⟩, ?_⟩
    rintro ⟨s, hs, hstart, hstop⟩
    -- The range with the successor would have to be another one, above or below.
    obtain rfl | hne := eq_or_ne r s
    · omega
    · obtain hbelow | habove := h.apart_of_ne hr hs hne <;> omega
  · rintro ⟨⟨r, hr, hstart, hstop⟩, hnext⟩
    have heq : r.2 = n := by
      by_contra hne
      exact hnext ⟨r, hr, by omega, by omega⟩
    exact List.mem_map.mpr ⟨r, hr, heq⟩

end Normal

/-- How many maximal runs of consecutive numbers a set has. -/
def count (s : Finset Nat) : Nat := (s.filter fun n => n + 1 ∉ s).card

theorem Normal.length_eq_count (h : Normal ranges) {s : Finset Nat}
    (hs : ∀ n, n ∈ s ↔ Covers ranges n) : ranges.length = count s := by
  have hnodup : (ranges.map Prod.snd).Nodup := by
    rw [List.Nodup, List.pairwise_map]
    apply h.apart.imp_of_mem
    grind [cases Normal]
  have hset : (ranges.map Prod.snd).toFinset = s.filter fun n => n + 1 ∉ s := by
    ext n
    rw [List.mem_toFinset, h.mem_stops_iff, Finset.mem_filter, hs, hs]
  rw [count, ← hset, List.toFinset_card_of_nodup hnodup, List.length_map]

end Starfish.Runs
