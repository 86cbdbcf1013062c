import Starfish.Lib.Cursor
import Starfish.Lib.Loop

/-!
# Sequences of items in a buffer

A buffer that holds items one behind the other is read by a loop: a parser takes the
item in front and leaves the rest, until nothing is left or the parser ends the sequence.
-/

namespace Starfish.Items

variable {β ε α : Type} {front : List β → Outcome ε (Option (α × List β))}

/-- One turn of the loop: the rest of the buffer and the items so far. -/
def step (front : List β → Outcome ε (Option (α × List β))) (state : List β × List α) :
    (List β × List α) ⊕ Outcome ε (List α) :=
  if state.1.isEmpty then .inr (.ok state.2)
  else
    match front state.1 with
    | .ok (some (item, rest)) => .inl (rest, state.2 ++ [item])
    | .ok none => .inr (.ok state.2)
    | .error e => .inr (.error e)
    | .panic => .inr .panic

/-- Read all items. No result means that the loop is still going. -/
def readAll (front : List β → Outcome ε (Option (α × List β))) (buf : List β) :
    Option (Outcome ε (List α)) :=
  Loop.run (step front) (buf.length + 1) (buf, [])

variable (found : List α)

theorem step_nil : step front ([], found) = .inr (.ok found) := rfl

variable {buf : List β}

variable {rest : List β} {state : List β × List α} {items : List α}

theorem step_next {item : α} (hne : buf ≠ [])
    (h : front buf = .ok (some (item, rest))) (found : List α) :
    step front (buf, found) = .inl (rest, found ++ [item]) := by
  simp only [step, List.isEmpty_iff, hne, if_false, h]

/-- The only turns that go on are those that find an item. -/
theorem step_eq_inl {found : List α} (h : step front state = .inl (rest, found)) :
    state.1 ≠ [] ∧ ∃ item, front state.1 = .ok (some (item, rest)) ∧ found = state.2 ++ [item] := by
  grind [step]

/-! ## The loop ends -/

/-- What a step that ends the loop returns is no panic if the parser does not panic. -/
theorem step_eq_inr {post : α → Prop} {x : Outcome ε (List α)}
    (hfront : state.1 ≠ [] → front state.1 ≠ .panic) (hpost : ∀ item ∈ state.2, post item)
    (h : step front state = .inr x) : x.Meets fun items => ∀ item ∈ items, post item := by
  unfold step at h
  split at h
  · cases h
    exact hpost
  · next hne =>
    have hfront := hfront fun hnil => hne (List.isEmpty_iff.mpr hnil)
    split at h
    · cases h
    · cases h
      exact hpost
    · cases h
      trivial
    · next hpanic => exact absurd hpanic hfront

/-- If on buffers of at most `limit` elements the parser does not panic and consumes something
each time, the loop ends without a panic, and its items are as the parser's. -/
theorem readAll_total (limit : Nat) (post : α → Prop)
    (hfront : ∀ buf, buf ≠ [] → buf.length ≤ limit → (front buf).Meets fun r => ∀ item rest, r = some (item, rest) → rest.length < buf.length ∧ post item)
    (hbuf : buf.length ≤ limit) :
    ∃ x, readAll front buf = some x ∧ x.Meets fun items => ∀ item ∈ items, post item := by
  apply Loop.run_total (I := fun state : List β × List α =>
    state.1.length ≤ limit ∧ ∀ item ∈ state.2, post item) fun state => state.1.length
  · rintro state ⟨rest, found⟩ ⟨hlen, hpost⟩ hstep
    obtain ⟨hne, item, hitem, rfl⟩ := step_eq_inl hstep
    have hmeets := hfront state.1 hne hlen
    rw [hitem] at hmeets
    obtain ⟨hrest, hitemPost⟩ := hmeets item rest rfl
    grind
  · intro state x ⟨hlen, hpost⟩ hstep
    exact step_eq_inr (fun hne => (hfront state.1 hne hlen).ne_panic) hpost hstep
  · exact ⟨hbuf, fun _ hmem => (nomatch hmem)⟩
  · exact Nat.lt_succ_self _

/-! ## Items read back -/

/-- The parser takes the buffer apart into the given items. -/
inductive Splits (front : List β → Outcome ε (Option (α × List β))) : List β → List α → Prop
  | nil : Splits front [] []
  | cons {buf rest : List β} {item : α} {items : List α} :
      front buf = .ok (some (item, rest)) → rest.length < buf.length → Splits front rest items →
      Splits front buf (item :: items)

theorem run_step_of_splits (h : Splits front buf items) {fuel : Nat}
    (hfuel : buf.length < fuel) (found : List α) :
    Loop.run (step front) fuel (buf, found) = some (.ok (found ++ items)) := by
  induction h generalizing fuel found with
  | nil =>
    obtain ⟨fuel, rfl⟩ : ∃ n, fuel = n + 1 := ⟨fuel - 1, by omega⟩
    rw [Loop.run_done (step_nil found), List.append_nil]
  | @cons buf rest item items hfront hlt _ ih =>
    obtain ⟨fuel, rfl⟩ : ∃ n, fuel = n + 1 := ⟨fuel - 1, by omega⟩
    have hne : buf ≠ [] := by
      rintro rfl
      exact absurd hlt (Nat.not_lt_zero _)
    rw [Loop.run_next (step_next hne hfront found), ih (by omega), List.append_assoc]
    rfl

theorem readAll_of_splits (h : Splits front buf items) : readAll front buf = some (.ok items) :=
  run_step_of_splits h (Nat.lt_succ_self _) []

end Starfish.Items
