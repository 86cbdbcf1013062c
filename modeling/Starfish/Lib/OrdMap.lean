import Mathlib.Tactic.Common
import Mathlib.Data.List.Basic

/-!
# Ordered maps with natural-number keys

A finite map is the list of its entries in strictly ascending key order, so two
maps with the same lookups are equal and iteration visits the keys from the
smallest to the largest. The ascending order is a field of the structure: no
operation below can produce an unordered or duplicated key.
-/

namespace Starfish

universe u

/-- A finite map whose entries are stored in strictly ascending key order. -/
@[ext] structure OrdMap (V : Type u) where
  entries : List (Nat × V)
  sorted : entries.Pairwise fun a b => a.1 < b.1

namespace OrdMap

variable {V : Type u}

instance [DecidableEq V] : DecidableEq (OrdMap V) := fun m n =>
  decidable_of_iff (m.entries = n.entries) OrdMap.ext_iff.symm

/-- The map without entries. -/
def empty : OrdMap V := ⟨[], List.Pairwise.nil⟩

instance : Inhabited (OrdMap V) := ⟨empty⟩

/-- The value stored under a key. -/
def find? (m : OrdMap V) (k : Nat) : Option V := m.entries.lookup k

def keys (m : OrdMap V) : List Nat := m.entries.map Prod.fst

def values (m : OrdMap V) : List V := m.entries.map Prod.snd

def isEmpty (m : OrdMap V) : Bool := m.entries.isEmpty

/-- Insert into an ascending entry list, replacing an entry with the same key. -/
def insertEntry (k : Nat) (v : V) : List (Nat × V) → List (Nat × V)
  | [] => [(k, v)]
  | e :: rest =>
    if k < e.1 then (k, v) :: e :: rest
    else if e.1 = k then (k, v) :: rest
    else e :: insertEntry k v rest

variable {k : Nat} {v : V} {l : List (Nat × V)}

theorem mem_insertEntry_imp {e : Nat × V} (h : e ∈ insertEntry k v l) : e = (k, v) ∨ e ∈ l := by
  induction l with
  | nil => simpa [insertEntry] using h
  | cons x rest ih =>
    grind [insertEntry]

theorem insertEntry_sorted (hl : l.Pairwise fun a b => a.1 < b.1) :
    (insertEntry k v l).Pairwise fun a b => a.1 < b.1 := by
  induction l with
  | nil => simp [insertEntry]
  | cons x rest ih =>
    obtain ⟨hx, hrest⟩ := List.pairwise_cons.mp hl
    simp only [insertEntry]
    split
    · next hk =>
      refine List.pairwise_cons.mpr ⟨?_, hl⟩
      grind
    · next hk =>
      split
      · next heq =>
        refine List.pairwise_cons.mpr ⟨?_, hrest⟩
        intro e he
        exact heq ▸ hx e he
      · next hne =>
        refine List.pairwise_cons.mpr ⟨?_, ih hrest⟩
        intro e he
        rcases mem_insertEntry_imp he with rfl | he
        all_goals grind

/-- Store a value under a key, replacing the value stored there. -/
def insert (m : OrdMap V) (k : Nat) (v : V) : OrdMap V :=
  ⟨insertEntry k v m.entries, insertEntry_sorted m.sorted⟩

/-- Remove a key. -/
def erase (m : OrdMap V) (k : Nat) : OrdMap V :=
  ⟨m.entries.filter fun e => e.1 != k, m.sorted.filter _⟩

/-- Keep the entries that satisfy a predicate. -/
def filter (m : OrdMap V) (p : Nat → V → Bool) : OrdMap V :=
  ⟨m.entries.filter fun e => p e.1 e.2, m.sorted.filter _⟩

/-- Change every value, with access to its key. -/
def map (m : OrdMap V) (f : Nat → V → V) : OrdMap V :=
  ⟨m.entries.map fun e => (e.1, f e.1 e.2), List.pairwise_map.mpr m.sorted⟩

def insertAll (m : OrdMap V) (l : List (Nat × V)) : OrdMap V :=
  l.foldl (fun m e => m.insert e.1 e.2) m

/-! ## Lookups -/

@[simp] theorem entries_empty : (empty : OrdMap V).entries = [] := rfl

@[simp] theorem find?_empty (k : Nat) : (empty : OrdMap V).find? k = none := rfl

variable {m : OrdMap V}

theorem entry_unique {w : V} (hv : (k, v) ∈ m.entries) (hw : (k, w) ∈ m.entries) : v = w := by
  have key : ∀ l : List (Nat × V), l.Pairwise (fun a b => a.1 < b.1) →
      (k, v) ∈ l → (k, w) ∈ l → v = w := by
    intro l hl
    induction l with
    | nil => intro h; cases h
    | cons x rest ih =>
      obtain ⟨hx, hrest⟩ := List.pairwise_cons.mp hl
      grind
  exact key m.entries m.sorted hv hw

private theorem lookup_some_mem (h : l.lookup k = some v) : (k, v) ∈ l := by
  induction l with
  | nil => simp at h
  | cons x rest ih =>
    grind

private theorem lookup_none_not_mem (h : l.lookup k = none) (v : V) : (k, v) ∉ l := by
  grind

theorem find?_eq_some_iff :
    m.find? k = some v ↔ (k, v) ∈ m.entries := by
  constructor
  · exact lookup_some_mem
  · intro h
    cases hf : m.find? k with
    | none => exact absurd h (lookup_none_not_mem hf v)
    | some w => rw [entry_unique (lookup_some_mem hf) h]

theorem find?_eq_none_iff :
    m.find? k = none ↔ ∀ v, (k, v) ∉ m.entries := by
  constructor
  · exact lookup_none_not_mem
  · intro h
    cases hf : m.find? k with
    | none => rfl
    | some w => exact absurd (lookup_some_mem hf) (h w)

theorem mem_keys_iff : k ∈ m.keys ↔ (m.find? k).isSome = true := by
  rw [Option.isSome_iff_exists]
  constructor
  · intro h
    obtain ⟨e, he, rfl⟩ := List.mem_map.mp h
    exact ⟨e.2, find?_eq_some_iff.mpr he⟩
  · intro h
    obtain ⟨v, hv⟩ := h
    exact List.mem_map.mpr ⟨(k, v), find?_eq_some_iff.mp hv, rfl⟩

theorem keys_nodup (m : OrdMap V) : m.keys.Nodup :=
  List.pairwise_map.mpr (m.sorted.imp Nat.ne_of_lt)

theorem mem_insertEntry (hl : l.Pairwise fun a b => a.1 < b.1) (e : Nat × V) :
    e ∈ insertEntry k v l ↔ e = (k, v) ∨ (e ∈ l ∧ e.1 ≠ k) := by
  induction l with
  | nil => simp [insertEntry]
  | cons x rest ih =>
    obtain ⟨hx, hrest⟩ := List.pairwise_cons.mp hl
    simp only [insertEntry]
    split
    · next hk =>
      grind
    · next hk =>
      split
      · next heq =>
        grind
      · next hne =>
        grind

variable (e : Nat × V)

theorem mem_insert :
    e ∈ (m.insert k v).entries ↔ e = (k, v) ∨ (e ∈ m.entries ∧ e.1 ≠ k) :=
  mem_insertEntry m.sorted e

theorem mem_erase :
    e ∈ (m.erase k).entries ↔ e ∈ m.entries ∧ e.1 ≠ k := by
  simp [erase]

theorem mem_filter {p : Nat → V → Bool} :
    e ∈ (m.filter p).entries ↔ e ∈ m.entries ∧ p e.1 e.2 = true := by
  simp [filter]

theorem find?_insert (m : OrdMap V) (k : Nat) (v : V) (j : Nat) :
    (m.insert k v).find? j = if j = k then some v else m.find? j := by
  apply Option.ext
  intro w
  rw [find?_eq_some_iff, mem_insert]
  by_cases hj : j = k
  · subst hj
    simp [eq_comm]
  · simp [hj, find?_eq_some_iff]

@[simp] theorem find?_insert_self (m : OrdMap V) (k : Nat) (v : V) :
    (m.insert k v).find? k = some v := by
  simp [find?_insert]

theorem mem_keys_insert {j : Nat} :
    j ∈ (m.insert k v).keys ↔ j = k ∨ j ∈ m.keys := by
  grind [mem_keys_iff, find?_insert]

theorem find?_erase (m : OrdMap V) (k j : Nat) :
    (m.erase k).find? j = if j = k then none else m.find? j := by
  apply Option.ext
  grind [find?_eq_some_iff, mem_erase]

theorem find?_map (m : OrdMap V) (f : Nat → V → V) (k : Nat) :
    (m.map f).find? k = (m.find? k).map (f k) := by
  apply Option.ext
  simp [find?_eq_some_iff, map]

/-! ## Counting entries -/

theorem insertEntry_perm (h : ∀ e ∈ l, e.1 ≠ k) :
    (insertEntry k v l).Perm ((k, v) :: l) := by
  induction l with
  | nil => exact List.Perm.refl _
  | cons x rest ih =>
    have hx : x.1 ≠ k := h x (by simp)
    simp only [insertEntry]
    split
    · exact List.Perm.refl _
    · exact ((ih fun e he => h e (by simp [he])).cons x).trans (List.Perm.swap _ _ _)

/-- A fresh key adds exactly one entry. -/
theorem entries_insert_perm (v : V) (h : m.find? k = none) :
    (m.insert k v).entries.Perm ((k, v) :: m.entries) :=
  insertEntry_perm fun e he hk => (find?_eq_none_iff.mp h) e.2 (by rw [← hk]; exact he)

theorem keys_insert_perm (v : V) (h : m.find? k = none) :
    (m.insert k v).keys.Perm (k :: m.keys) :=
  (entries_insert_perm v h).map Prod.fst

theorem map_fst_insertEntry (hl : l.Pairwise fun a b => a.1 < b.1) (hk : k ∈ l.map Prod.fst) :
    (insertEntry k v l).map Prod.fst = l.map Prod.fst := by
  induction l with
  | nil => cases hk
  | cons e rest ih =>
    obtain ⟨hfirst, hrest⟩ := List.pairwise_cons.mp hl
    simp only [insertEntry]
    grind

/-- Replacing a value keeps the keys. -/
theorem keys_insert_of_isSome (v : V) (h : (m.find? k).isSome) :
    (m.insert k v).keys = m.keys :=
  map_fst_insertEntry m.sorted (mem_keys_iff.mpr h)

@[simp] theorem keys_map (m : OrdMap V) (f : Nat → V → V) : (m.map f).keys = m.keys := by
  simp [keys, map]

private theorem filter_ne_perm (hl : l.Pairwise fun a b => a.1 < b.1) (h : (k, v) ∈ l) :
    l.Perm ((k, v) :: l.filter fun e => e.1 != k) := by
  induction l with
  | nil => cases h
  | cons x rest ih =>
    obtain ⟨hx, hrest⟩ := List.pairwise_cons.mp hl
    rcases List.mem_cons.mp h with rfl | h
    · have hkeep : rest.filter (fun e => e.1 != k) = rest := by
        apply List.filter_eq_self.mpr
        grind
      simp [hkeep]
    · have hne : x.1 ≠ k := Nat.ne_of_lt (hx _ h)
      rw [List.filter_cons_of_pos (by simpa using hne)]
      exact ((ih hrest h).cons x).trans (List.Perm.swap _ _ _)

/-- Removing a present key removes exactly one entry. -/
theorem entries_erase_perm (h : m.find? k = some v) :
    m.entries.Perm ((k, v) :: (m.erase k).entries) :=
  filter_ne_perm m.sorted (find?_eq_some_iff.mp h)

/-- Removing an absent key changes nothing. -/
theorem erase_eq_self (h : m.find? k = none) : m.erase k = m := by
  apply OrdMap.ext
  apply List.filter_eq_self.mpr
  intro e he
  simp only [bne_iff_ne]
  intro hk
  exact (find?_eq_none_iff.mp h) e.2 (by rw [← hk]; exact he)

/-! ## Building a map from an ordered list -/

theorem insertEntry_of_lt (h : ∀ e ∈ l, e.1 < k) :
    insertEntry k v l = l ++ [(k, v)] := by
  induction l with
  | nil => rfl
  | cons x rest ih =>
    have hx : x.1 < k := h x (by simp)
    simp only [insertEntry, if_neg (show ¬ k < x.1 by omega),
      if_neg (show ¬ x.1 = k by omega), List.cons_append]
    rw [ih fun e he => h e (by simp [he])]

theorem entries_insertAll (hl : (m.entries ++ l).Pairwise fun a b => a.1 < b.1) :
    (m.insertAll l).entries = m.entries ++ l := by
  induction l generalizing m with
  | nil => simp [insertAll]
  | cons x rest ih =>
    have hlt : ∀ e ∈ m.entries, e.1 < x.1 := fun e he =>
      (List.pairwise_append.mp hl).2.2 e he x (by simp)
    have hentries : (m.insert x.1 x.2).entries = m.entries ++ [x] := insertEntry_of_lt hlt
    grind [insertAll]

/-- Entries with distinct fresh keys are added to those that are there. -/
theorem mem_insertAll (hkeys : l.Pairwise fun a b => a.1 ≠ b.1)
    (hfresh : ∀ x ∈ l, ∀ e ∈ m.entries, e.1 ≠ x.1) (e : Nat × V) :
    e ∈ (m.insertAll l).entries ↔ e ∈ m.entries ∨ e ∈ l := by
  induction l generalizing m with
  | nil => simp [insertAll]
  | cons x rest ih =>
    obtain ⟨hx, hrest⟩ := List.pairwise_cons.mp hkeys
    have hmem : ∀ e, e ∈ (m.insert x.1 x.2).entries ↔ e = x ∨ e ∈ m.entries := by
      intro e
      rw [mem_insert]
      grind
    have hfresh' : ∀ y ∈ rest, ∀ e ∈ (m.insert x.1 x.2).entries, e.1 ≠ y.1 := by
      grind
    have hall := ih hrest hfresh'
    rw [hmem] at hall
    rw [show m.insertAll (x :: rest) = (m.insert x.1 x.2).insertAll rest from rfl, hall,
      List.mem_cons]
    tauto

end OrdMap

end Starfish
