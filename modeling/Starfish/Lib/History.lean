import Mathlib.Data.List.Induction

/-!
# Histories

A history grows at its end. What was said about an earlier event is still said about it, and the
only new event to look at is the last one.
-/

namespace Starfish.History

variable {α : Type*}

/-- An event of a history that has grown by one is the new one, or it was there before. -/
theorem split_concat {history before after : List α} {event other : α}
    (h : history ++ [event] = before ++ other :: after) :
    (history = before ∧ event = other ∧ after = []) ∨
      ∃ rest, after = rest ++ [event] ∧ history = before ++ other :: rest := by
  induction after using List.reverseRecOn with
  | nil =>
    simp_all
  | append_singleton rest last =>
    rw [← List.cons_append, ← List.append_assoc] at h
    obtain ⟨hhistory, hevent⟩ := List.append_inj' h rfl
    exact .inr ⟨rest, by rw [List.singleton_inj.mp hevent], hhistory⟩

end Starfish.History
