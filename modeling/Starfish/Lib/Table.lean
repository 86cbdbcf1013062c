import Mathlib.Logic.Function.Basic
import Mathlib.Tactic.Common

/-!
# Tables

What can be read out of a hash map is the entry of each key, so a table is the function from
keys to entries. The operations are those of a map that is updated in place: one entry or a list
of entries is inserted, an entry is erased, or the entries that meet a condition are retained.
-/

namespace Starfish

universe u v

/-- A map from keys to entries. -/
abbrev Table (K : Type u) (V : Type v) := K → Option V

namespace Table

variable {K : Type u} {V : Type v} [DecidableEq K] {t : Table K V} {k : K} {v : V}

def empty : Table K V := fun _ => none

def insert (t : Table K V) (k : K) (v : V) : Table K V := Function.update t k (some v)

def erase (t : Table K V) (k : K) : Table K V := Function.update t k none

/-- Keep the entries that meet the condition. -/
def retain (t : Table K V) (p : K → V → Bool) : Table K V := fun k => (t k).filter (p k)

/-- Insert entries one after the other; the last one of a key stays. -/
def insertAll (t : Table K V) (entries : List (K × V)) : Table K V :=
  entries.foldl (fun t entry => t.insert entry.1 entry.2) t

theorem insert_apply (t : Table K V) (k : K) (v : V) (j : K) :
    t.insert k v j = if j = k then some v else t j :=
  Function.update_apply t k (some v) j

theorem erase_apply (t : Table K V) (k j : K) : t.erase k j = if j = k then none else t j :=
  Function.update_apply t k none j

omit [DecidableEq K] in
theorem retain_eq_some_iff {p : K → V → Bool} :
    t.retain p k = some v ↔ t k = some v ∧ p k v = true :=
  Option.filter_eq_some_iff

/-- Many keys with one entry. -/
theorem insertAll_const (t : Table K V) (keys : List K) (v : V) (j : K) :
    t.insertAll (keys.map (·, v)) j = if j ∈ keys then some v else t j := by
  induction keys generalizing t with
  | nil => rfl
  | cons k rest ih =>
    have hcons : t.insertAll ((k :: rest).map (·, v)) = (t.insert k v).insertAll (rest.map (·, v)) :=
      rfl
    rw [hcons, ih, insert_apply]
    by_cases hj : j = k
    · simp [hj]
    · simp [hj]

/-- An entry after the insertions was inserted or there before. -/
theorem insertAll_eq_some {entries : List (K × V)} (h : t.insertAll entries k = some v) :
    (k, v) ∈ entries ∨ t k = some v := by
  induction entries generalizing t with
  | nil => exact .inr h
  | cons entry rest ih =>
    have hrest : (t.insert entry.1 entry.2).insertAll rest k = some v := h
    grind [insert_apply]

end Table

end Starfish
