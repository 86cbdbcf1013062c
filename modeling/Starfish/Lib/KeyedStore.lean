import Mathlib.Data.List.Nodup

/-!
# Stores with one entry for each key

A list of entries in which putting an entry removes the one with the same key. What the store
holds is read off the log of all changes: an entry is current if no later change has its key.
Entries may expire, and expired entries may be dropped at any time.
-/

namespace Starfish.KeyedStore

variable {α κ σ τ : Type} (keyOf : α → κ)

inductive Change (α κ : Type)
  | put (entry : α)
  | delete (k : κ)

def Change.key : Change α κ → κ
  | .put entry => keyOf entry
  | .delete k => k

variable {store : List α}

theorem nodup_filter {p : α → Bool} (h : (store.map keyOf).Nodup) :
    ((store.filter p).map keyOf).Nodup :=
  h.sublist (List.filter_sublist.map keyOf)

/-- In the log of changes, each with a stamp, this is the last one with its key. -/
def Current (log : List (σ × Change α κ)) (stamp : σ) (entry : α) : Prop :=
  ∃ before after, log = before ++ (stamp, .put entry) :: after ∧
    ∀ later ∈ after, later.2.key keyOf ≠ keyOf entry

theorem not_current_nil (stamp : σ) (entry : α) :
    ¬Current keyOf ([] : List (σ × Change α κ)) stamp entry := by
  rintro ⟨before, after, h, -⟩
  simp at h

variable {log : List (σ × Change α κ)}

theorem current_concat {last : σ × Change α κ} {stamp : σ} {entry : α} :
    Current keyOf (log ++ [last]) stamp entry ↔
      last = (stamp, .put entry) ∨ Current keyOf log stamp entry ∧ last.2.key keyOf ≠ keyOf entry := by
  constructor
  · rintro ⟨before, after, h, hlater⟩
    rcases List.eq_nil_or_concat after with rfl | ⟨init, final, hafter⟩
    · exact .inl (List.cons.inj (List.append_inj' h rfl).2).1
    · rw [List.concat_eq_append] at hafter
      rw [hafter, ← List.cons_append, ← List.append_assoc] at h
      obtain ⟨hlog, hlast⟩ := List.append_inj' h rfl
      cases hlast
      rw [hafter] at hlater
      exact .inr ⟨⟨before, init, hlog, fun later hl => hlater later (by simp [hl])⟩,
        hlater last (by simp)⟩
  · rintro (rfl | ⟨⟨before, after, rfl, hlater⟩, hlast⟩)
    · exact ⟨log, [], rfl, by simp⟩
    · refine ⟨before, after ++ [last], by simp, ?_⟩
      grind

/-! ## Entries that expire -/

variable (live : τ → α → Bool)

/-- Up to entries that have expired at `now`, the store holds the current entries of the log. -/
def Tracks (now : τ) (store : List α) (log : List (σ × Change α κ)) : Prop :=
  ∀ entry, live now entry = true → (entry ∈ store ↔ ∃ stamp, Current keyOf log stamp entry)

variable {keyOf live}

theorem tracks_nil (now : τ) : Tracks keyOf live now [] ([] : List (σ × Change α κ)) := by
  intro entry _
  simp [not_current_nil]

/-- Dropping what has expired, at `now` or before. -/
theorem Tracks.purge {now past : τ} (h : Tracks keyOf live now store log)
    (hlive : ∀ entry, live now entry = true → live past entry = true) :
    Tracks keyOf live now (store.filter (live past)) log := by
  intro entry hentry
  rw [List.mem_filter, ← h entry hentry]
  exact and_iff_left (hlive entry hentry)

/-! ## Changes -/

variable [DecidableEq κ] (keyOf)

def change (store : List α) : Change α κ → List α
  | .put entry => (store.filter fun a => keyOf a ≠ keyOf entry) ++ [entry]
  | .delete k => store.filter fun a => keyOf a ≠ k

theorem nodup_change (h : (store.map keyOf).Nodup) (c : Change α κ) :
    ((change keyOf store c).map keyOf).Nodup := by
  cases c with
  | put entry =>
    rw [change, List.map_append, List.map_singleton, List.nodup_append]
    grind
  | delete k => exact nodup_filter keyOf h

variable {keyOf}

theorem Tracks.change {now : τ} (h : Tracks keyOf live now store log) (stamp : σ) (c : Change α κ) :
    Tracks keyOf live now (change keyOf store c) (log ++ [(stamp, c)]) := by
  intro entry hlive
  have hold := h entry hlive
  simp only [current_concat, exists_or, exists_and_right, ← hold]
  cases c with
  | put put =>
    simp only [KeyedStore.change, Change.key, List.mem_append, List.mem_filter,
      List.mem_singleton, Prod.mk.injEq, Change.put.injEq]
    grind
  | delete k =>
    simp only [KeyedStore.change, Change.key, List.mem_filter, Prod.mk.injEq, reduceCtorEq,
      and_false, exists_false, false_or]
    grind

end Starfish.KeyedStore
