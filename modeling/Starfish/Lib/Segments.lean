import Mathlib.Tactic.Common
import Mathlib.Data.List.Infix

/-!
# Segments of a byte string

A segment is a piece of data with the offset of its first element. The segments
of a list cover a set of positions; they are slices of a string when each agrees
with the string at its own offset.
-/

namespace Starfish

universe u

variable {α : Type u}

/-- Data with the offset of its first element. -/
abbrev Segment (α : Type u) := Nat × List α

namespace Segment

/-- The first offset after the segment. -/
def stop (s : Segment α) : Nat := s.1 + s.2.length

/-- Position `i` lies in the segment. -/
def Has (s : Segment α) (i : Nat) : Prop := s.1 ≤ i ∧ i < s.1 + s.2.length

instance (s : Segment α) (i : Nat) : Decidable (s.Has i) :=
  inferInstanceAs (Decidable (_ ∧ _))

@[simp] theorem not_has_nil (start i : Nat) : ¬ Has ((start, []) : Segment α) i := by
  simp only [Has, List.length_nil]
  omega

/-- The segment is the part of `S` at its own offset. -/
def IsSlice (S : List α) (s : Segment α) : Prop := s.2 <+: S.drop s.1

instance [DecidableEq α] (S : List α) (s : Segment α) : Decidable (s.IsSlice S) :=
  inferInstanceAs (Decidable (_ <+: _))

variable {S : List α} {start : Nat}

theorem IsSlice.take {data : List α} (h : IsSlice S (start, data)) (k : Nat) :
    IsSlice S (start, data.take k) :=
  (List.take_prefix k data).trans h

theorem IsSlice.drop {data : List α} (h : IsSlice S (start, data)) (k : Nat) :
    IsSlice S (start + k, data.drop k) := by
  have hd : data.drop k <+: (S.drop start).drop k := List.IsPrefix.drop h k
  rwa [List.drop_drop] at hd

theorem IsSlice.append {a b : List α} (ha : IsSlice S (start, a))
    (hb : IsSlice S (start + a.length, b)) :
    IsSlice S (start, a ++ b) := by
  obtain ⟨rest, hrest⟩ := ha
  have hdrop : S.drop (start + a.length) = rest := by
    grind [List.drop_drop, List.drop_left]
  obtain ⟨rest', hrest'⟩ := hb
  refine ⟨rest', ?_⟩
  grind

/-- A nonempty slice lies inside the string. -/
theorem IsSlice.stop_le {s : Segment α} (h : IsSlice S s) (hne : s.2 ≠ []) :
    s.stop ≤ S.length := by
  have hle : s.2.length ≤ (S.drop s.1).length := List.IsPrefix.length_le h
  have hpos : 0 < s.2.length := List.length_pos_iff.mpr hne
  rw [List.length_drop] at hle
  unfold stop
  omega

/-- Reading a slice that starts where a prefix of the string ends extends the prefix. -/
theorem IsSlice.take_append {s : Segment α} (h : IsSlice S s) :
    S.take s.1 ++ s.2 = S.take (s.1 + s.2.length) := by
  rw [List.take_add, ← List.prefix_iff_eq_take.mp h]

end Segment

def Covered (l : List (Segment α)) (i : Nat) : Prop := ∃ s ∈ l, Segment.Has s i

instance (l : List (Segment α)) (i : Nat) : Decidable (Covered l i) :=
  inferInstanceAs (Decidable (∃ s ∈ l, _))

@[simp] theorem covered_nil (i : Nat) : Covered ([] : List (Segment α)) i ↔ False := by
  simp [Covered]

@[simp] theorem covered_cons (s : Segment α) (l : List (Segment α)) (i : Nat) :
    Covered (s :: l) i ↔ s.Has i ∨ Covered l i := by
  simp [Covered]

theorem covered_append (l l' : List (Segment α)) (i : Nat) :
    Covered (l ++ l') i ↔ Covered l i ∨ Covered l' i := by
  simp [Covered, or_and_right, exists_or]

variable {l : List (Segment α)}

/-- Coverage depends only on the members of the list. -/
theorem covered_congr {l' : List (Segment α)} (h : ∀ s, s ∈ l ↔ s ∈ l') (i : Nat) :
    Covered l i ↔ Covered l' i := by
  simp [Covered, h]

/-- Every segment ends strictly before the next one starts, so that no two of
them could be joined. -/
def Separated (l : List (Segment α)) : Prop := l.Pairwise fun a b => a.stop < b.1

/-- Two members of a list whose members are pairwise related are equal or related. -/
theorem pairwise_cases {β : Type u} {R : β → β → Prop} {l : List β} (hl : l.Pairwise R)
    {a b : β} (ha : a ∈ l) (hb : b ∈ l) : a = b ∨ R a b ∨ R b a := by
  induction l with
  | nil => cases ha
  | cons x rest ih =>
    obtain ⟨hx, hrest⟩ := List.pairwise_cons.mp hl
    grind

/-- Two neighbouring covered positions lie in one and the same segment. -/
theorem Separated.same_segment (hsep : Separated l) {s s' : Segment α} {i : Nat} (hs : s ∈ l)
    (hs' : s' ∈ l) (hi : s.Has i) (hi' : s'.Has (i + 1)) : s = s' := by
  unfold Segment.Has at hi hi'
  rcases pairwise_cases hsep hs hs' with h | h | h
  all_goals grind [Segment.stop]

theorem Separated.stop_not_covered (hsep : Separated l) {s : Segment α} (hs : s ∈ l)
    (hne : s.2 ≠ []) : ¬ Covered l s.stop := by
  rintro ⟨s', hs', hi'⟩
  have hpos : 0 < s.2.length := List.length_pos_iff.mpr hne
  have hlast : s.Has (s.stop - 1) := by
    unfold Segment.Has Segment.stop
    omega
  have hnext : s'.Has (s.stop - 1 + 1) := by
    rwa [Nat.sub_add_cancel (by unfold Segment.stop; omega)]
  have heq := hsep.same_segment hs hs' hlast hnext
  subst heq
  unfold Segment.Has Segment.stop at hi'
  omega

end Starfish
