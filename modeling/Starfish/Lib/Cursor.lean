import Mathlib.Algebra.GroupWithZero.Nat
import Mathlib.Tactic.Common

/-!
# Readers of a buffer

Code that reads a buffer through an offset returns a result, fails with an error of
its own, or panics: by an index or a slice outside the buffer, or by an addition that
overflows. A `Cursor` is such a computation. Two rules describe it: `Reads` says that it
never panics, stays inside the buffer and returns what it should, and `Decodes` says
that it reads a value back from given bytes wherever they stand in a buffer.
-/

namespace Starfish

/-- The largest offset of a 64-bit machine. -/
def usizeMax : Nat := 2 ^ 64 - 1

inductive Outcome (ε α : Type)
  | ok (value : α)
  | error (err : ε)
  | panic
deriving DecidableEq, Repr

namespace Outcome

variable {ε α β : Type}

def bind : Outcome ε α → (α → Outcome ε β) → Outcome ε β
  | .ok a, f => f a
  | .error e, _ => .error e
  | .panic, _ => .panic

def map (f : α → β) : Outcome ε α → Outcome ε β
  | .ok a => .ok (f a)
  | .error e => .error e
  | .panic => .panic

def ofExcept : Except ε α → Outcome ε α
  | .ok a => .ok a
  | .error e => .error e

instance : Monad (Outcome ε) where
  pure := .ok
  bind := Outcome.bind

@[simp] theorem ok_bind (a : α) (f : α → Outcome ε β) : (Outcome.ok a >>= f) = f a := rfl

@[simp] theorem error_bind (e : ε) (f : α → Outcome ε β) :
    ((.error e : Outcome ε α) >>= f) = .error e := rfl

variable {x : Outcome ε α} {f : α → Outcome ε β}

theorem bind_eq_ok {b : β} :
    x.bind f = .ok b ↔ ∃ a, x = .ok a ∧ f a = .ok b := by
  cases x <;> simp [bind]

theorem bind_eq_panic :
    x.bind f = .panic ↔ x = .panic ∨ ∃ a, x = .ok a ∧ f a = .panic := by
  cases x <;> simp [bind]

theorem map_eq_ok {f : α → β} {b : β} :
    x.map f = .ok b ↔ ∃ a, x = .ok a ∧ f a = b := by
  cases x <;> simp [map]

theorem map_eq_panic {f : α → β} : x.map f = .panic ↔ x = .panic := by
  cases x <;> simp [map]

theorem ofExcept_ne_panic (x : Except ε α) : ofExcept x ≠ .panic := by
  cases x <;> nofun

theorem ofExcept_ok_iff {x : Except ε α} {a : α} : ofExcept x = .ok a ↔ x = .ok a := by
  cases x <;> simp [ofExcept]

/-- The element at `i`; outside the list this panics. -/
def index (buf : List β) (i : Nat) : Outcome ε β :=
  match buf[i]? with
  | some b => .ok b
  | none => .panic

/-- The `n` elements from `start` on, one index after the other. -/
def indices (buf : List β) (start : Nat) : Nat → Outcome ε (List β)
  | 0 => .ok []
  | n + 1 => (index buf start).bind fun b => (indices buf (start + 1) n).map (b :: ·)

/-- The elements from `start` to `stop`, the latter not included; outside the list this
panics. -/
def range (buf : List β) (start stop : Nat) : Outcome ε (List β) :=
  if start ≤ stop ∧ stop ≤ buf.length then .ok ((buf.drop start).take (stop - start)) else .panic

/-- Addition of offsets; overflow panics. -/
def add (a b : Nat) : Outcome ε Nat := if a + b ≤ usizeMax then .ok (a + b) else .panic

/-- Subtraction of unsigned numbers; a result below zero panics. -/
def sub (a b : Nat) : Outcome ε Nat := if b ≤ a then .ok (a - b) else .panic

variable {buf : List β}

theorem index_of_lt {i : Nat} (h : i < buf.length) :
    (index buf i : Outcome ε β) = .ok buf[i] := by
  simp only [index, List.getElem?_eq_getElem h]

variable {start : Nat}

theorem indices_of_le {n : Nat} (h : start + n ≤ buf.length) :
    (indices buf start n : Outcome ε (List β)) = .ok ((buf.drop start).take n) := by
  induction n generalizing start with
  | zero => rfl
  | succ n ih =>
    have hlt : start < buf.length := by omega
    rw [indices, index_of_lt hlt, bind, ih (by omega), map, List.drop_eq_getElem_cons hlt,
      List.take_succ_cons]

theorem range_of_le {stop : Nat} (hstart : start ≤ stop) (hstop : stop ≤ buf.length) :
    (range buf start stop : Outcome ε (List β)) = .ok ((buf.drop start).take (stop - start)) :=
  if_pos ⟨hstart, hstop⟩

theorem range_to_end (h : start ≤ buf.length) :
    (range buf start buf.length : Outcome ε (List β)) = .ok (buf.drop start) := by
  rw [range_of_le h (Nat.le_refl _), ← List.length_drop, List.take_length]

theorem add_of_le {a b : Nat} (h : a + b ≤ usizeMax) : (add a b : Outcome ε Nat) = .ok (a + b) :=
  if_pos h

theorem sub_of_le {a b : Nat} (h : b ≤ a) : (sub a b : Outcome ε Nat) = .ok (a - b) := if_pos h

/-- What an outcome has to be: no panic, and a result as described. -/
def Meets (x : Outcome ε α) (post : α → Prop) : Prop :=
  match x with
  | .ok a => post a
  | .error _ => True
  | .panic => False

variable {p : α → Prop}

theorem Meets.mono {q : α → Prop} (h : x.Meets p) (hpq : ∀ a, p a → q a) : x.Meets q := by
  cases x with
  | ok a => exact hpq a h
  | error e => trivial
  | panic => exact h

theorem Meets.bind {q : β → Prop} (h : x.Meets p) (hf : ∀ a, p a → (f a).Meets q) :
    (x >>= f).Meets q := by
  cases x with
  | ok a => exact hf a h
  | error e => trivial
  | panic => exact h

theorem Meets.map {f : α → β} {q : β → Prop} (h : x.Meets fun a => q (f a)) :
    (x.map f).Meets q := by
  cases x with
  | ok a => exact h
  | error e => trivial
  | panic => exact h

theorem meets_ofExcept {x : Except ε α} (h : ∀ a, x = .ok a → p a) :
    (ofExcept x).Meets p := by
  cases x with
  | ok a => exact h a rfl
  | error e => trivial

theorem Meets.ne_panic (h : x.Meets p) : x ≠ .panic := by
  rintro rfl
  exact h

end Outcome

/-- A computation over a buffer and an offset into it, which it moves. -/
def Cursor (β ε α : Type) := List β → Nat → Outcome ε (α × Nat)

namespace Cursor

variable {β ε α γ : Type}

instance : Monad (Cursor β ε) where
  pure a := fun _ offset => .ok (a, offset)
  bind r f := fun buf offset => (r buf offset).bind fun (a, next) => f a buf next

theorem bind_apply (r : Cursor β ε α) (f : α → Cursor β ε γ) (buf : List β) (offset : Nat) :
    (r >>= f) buf offset = (r buf offset).bind fun (a, next) => f a buf next := rfl

variable {offset : Nat}

theorem bind_of_ok {r : Cursor β ε α} {f : α → Cursor β ε γ} {buf : List β} {next : Nat} {a : α}
    (h : r buf offset = .ok (a, next)) : (r >>= f) buf offset = f a buf next := by
  rw [bind_apply, h]
  rfl

/-! ## Reading -/

def fail (e : ε) : Cursor β ε α := fun _ _ => .error e

/-- A computation that does not look at the buffer. -/
def lift (x : Outcome ε α) : Cursor β ε α := fun _ offset => x.map fun a => (a, offset)

/-- Call a parser with the rest of the buffer and move on by what it has consumed. -/
def call (f : List β → Outcome ε (α × Nat)) : Cursor β ε α := fun buf offset =>
  (Outcome.range buf offset buf.length).bind fun rest =>
    (f rest).bind fun (a, consumed) => (Outcome.add offset consumed).map fun next => (a, next)

/-- Fail unless the buffer has `n` more elements. -/
def ensure (n : Nat) (e : ε) : Cursor β ε Unit := fun buf offset =>
  (Outcome.add offset n).bind fun stop => if buf.length < stop then .error e else .ok ((), offset)

/-- The next `n` elements. -/
def bytes (n : Nat) : Cursor β ε (List β) := fun buf offset =>
  (Outcome.add offset n).bind fun stop =>
    (Outcome.range buf offset stop).map fun data => (data, stop)

/-- The next `n` elements; a failure if there are not as many. -/
def takeBytes (n : Nat) (e : ε) : Cursor β ε (List β) := do
  ensure n e
  bytes n

/-- The next element; a failure at the end of the buffer. -/
def byte (e : ε) : Cursor β ε β := fun buf offset =>
  if buf.length ≤ offset then .error e
  else (Outcome.index buf offset).bind fun b =>
    (Outcome.add offset 1).map fun next => (b, next)

/-- Everything up to the end of the buffer. -/
def rest : Cursor β ε (List β) := fun buf offset =>
  (Outcome.range buf offset buf.length).map fun data => (data, buf.length)

variable {n : Nat}

theorem ensure_eq (h : offset + n ≤ usizeMax) (e : ε) (buf : List β) :
    ensure n e buf offset = if buf.length < offset + n then .error e else .ok ((), offset) := by
  simp only [ensure, Outcome.add_of_le h, Outcome.bind]

theorem bytes_eq {buf : List β} (h : offset + n ≤ usizeMax) (hin : offset + n ≤ buf.length) :
    (bytes n : Cursor β ε (List β)) buf offset = .ok ((buf.drop offset).take n, offset + n) := by
  simp only [bytes, Outcome.add_of_le h, Outcome.bind,
    Outcome.range_of_le (Nat.le_add_right _ _) hin, Outcome.map, Nat.add_sub_cancel_left]

theorem takeBytes_eq (h : offset + n ≤ usizeMax) (e : ε) (buf : List β) :
    takeBytes n e buf offset =
      if buf.length < offset + n then .error e
      else .ok ((buf.drop offset).take n, offset + n) := by
  rw [takeBytes, bind_apply, ensure_eq h]
  split
  · rfl
  · next hroom => exact bytes_eq h (Nat.le_of_not_lt hroom)

/-! ## Reading within bounds -/

/-- In every buffer of at most `limit` elements `r` does not panic. If it returns a value,
it has moved on by at least `least` elements and not beyond the end, and the value meets
`post`. -/
def Reads (limit least : Nat) (r : Cursor β ε α) (post : α → Prop) : Prop :=
  ∀ buf offset, buf.length ≤ limit → offset ≤ buf.length →
    (r buf offset).Meets fun (a, next) => offset + least ≤ next ∧ next ≤ buf.length ∧ post a

namespace Reads

variable {limit least least' : Nat} {r : Cursor β ε α} {post : α → Prop}

theorem mono {weaker : α → Prop} (h : Reads limit least r post) (hleast : least' ≤ least)
    (hpost : ∀ a, post a → weaker a) : Reads limit least' r weaker := by
  intro buf offset hbuf hoffset
  apply (h buf offset hbuf hoffset).mono
  grind

theorem pure {a : α} (h : post a) : Reads limit 0 (Pure.pure a : Cursor β ε α) post := by
  intro buf offset _ hoffset
  exact ⟨Nat.le_refl _, hoffset, h⟩

variable (e : ε)

theorem fail : Reads limit least (Cursor.fail e : Cursor β ε α) post := by
  intro buf offset _ _
  trivial

theorem lift {x : Outcome ε α} (h : x.Meets post) :
    Reads limit 0 (Cursor.lift x : Cursor β ε α) post := by
  intro buf offset _ hoffset
  cases x with
  | ok a => exact ⟨Nat.le_refl _, hoffset, h⟩
  | error e => trivial
  | panic => exact h

/-- Two parts one after the other; the progress is that of the first one. -/
theorem bind {f : α → Cursor β ε γ} {after : γ → Prop} (h : Reads limit least r post)
    (hf : ∀ a, post a → Reads limit 0 (f a) after) : Reads limit least (r >>= f) after := by
  intro buf offset hbuf hoffset
  rw [bind_apply]
  have hr := h buf offset hbuf hoffset
  generalize r buf offset = x at hr ⊢
  cases x with
  | ok result =>
    obtain ⟨a, next⟩ := result
    obtain ⟨hnext, hin, ha⟩ := hr
    apply (hf a ha buf next hbuf hin).mono
    grind
  | error e => trivial
  | panic => exact hr

theorem zero (h : Reads limit least r post) : Reads limit 0 r post :=
  h.mono (Nat.zero_le _) fun _ ha => ha

/-- Two parts one after the other, where progress does not matter. -/
theorem seq {f : α → Cursor β ε γ} {after : γ → Prop} (h : Reads limit least r post)
    (hf : ∀ a, post a → Reads limit 0 (f a) after) : Reads limit 0 (r >>= f) after :=
  (h.bind hf).zero

/-- A parser that consumes part of what it is given may be called for the rest of a
buffer. -/
theorem call {f : List β → Outcome ε (α × Nat)} (hlimit : limit ≤ usizeMax)
    (h : ∀ buf, buf.length ≤ limit →
      (f buf).Meets fun (a, consumed) => least ≤ consumed ∧ consumed ≤ buf.length ∧ post a) :
    Reads limit least (Cursor.call f) post := by
  intro buf offset hbuf hoffset
  have hdrop : (buf.drop offset).length = buf.length - offset := List.length_drop
  rw [Cursor.call, Outcome.range_to_end hoffset]
  have hf := h (buf.drop offset) (by omega)
  simp only [Outcome.bind]
  generalize f (buf.drop offset) = x at hf ⊢
  cases x with
  | ok result =>
    obtain ⟨a, consumed⟩ := result
    obtain ⟨hleast, hin, ha⟩ := hf
    simp only [Outcome.add_of_le (show offset + consumed ≤ usizeMax by omega), Outcome.map]
    exact ⟨by omega, by omega, ha⟩
  | error e => trivial
  | panic => exact hf

/-- Calling a reader for the rest of the buffer. -/
theorem nested (hlimit : limit ≤ usizeMax) (h : Reads limit least r post) :
    Reads limit least (Cursor.call fun buf => r buf 0) post := by
  apply call hlimit
  intro buf hbuf
  apply (h buf 0 hbuf (Nat.zero_le _)).mono
  simp

theorem takeBytes (hlimit : limit + n ≤ usizeMax) (e : ε) :
    Reads limit n (Cursor.takeBytes n e : Cursor β ε (List β)) (·.length = n) := by
  intro buf offset hbuf hoffset
  rw [takeBytes_eq (by omega)]
  split
  · trivial
  · refine ⟨Nat.le_refl _, by omega, ?_⟩
    simp only [List.length_take, List.length_drop]
    omega

theorem byte (hlimit : limit < usizeMax) (e : ε) :
    Reads limit 1 (Cursor.byte e : Cursor β ε β) fun _ => True := by
  intro buf offset hbuf hoffset
  unfold Cursor.byte
  split
  · trivial
  · rw [Outcome.index_of_lt (by omega), Outcome.bind, Outcome.add_of_le (by omega)]
    exact ⟨Nat.le_refl _, by omega, trivial⟩

theorem rest : Reads limit 0 (Cursor.rest : Cursor β ε (List β)) (·.length ≤ limit) := by
  intro buf offset hbuf hoffset
  rw [Cursor.rest, Outcome.range_to_end hoffset]
  refine ⟨hoffset, Nat.le_refl _, ?_⟩
  simp only [List.length_drop]
  omega

end Reads

/-! ## Reading values back -/

/-- Wherever `data` stands in a buffer, `r` reads it as `a` and stops after it. -/
def Decodes (r : Cursor β ε α) (data : List β) (a : α) : Prop :=
  ∀ before after : List β, before.length + data.length ≤ usizeMax →
    r (before ++ (data ++ after)) before.length = .ok (a, before.length + data.length)

namespace Decodes

variable {r : Cursor β ε α} {data : List β} {a : α}

theorem pure (a : α) : Decodes (Pure.pure a : Cursor β ε α) [] a := by
  intro before after _
  rfl

theorem lift (a : α) : Decodes (Cursor.lift (.ok a) : Cursor β ε α) [] a := by
  intro before after _
  rfl

variable {f : α → Cursor β ε γ} {c : γ}

theorem bind {data' : List β} (h : Decodes r data a) (hf : Decodes (f a) data' c) :
    Decodes (r >>= f) (data ++ data') c := by
  intro before after hsize
  rw [List.length_append] at hsize ⊢
  rw [List.append_assoc data, bind_of_ok (h before (data' ++ after) (by omega))]
  have hnext := hf (before ++ data) after (by rw [List.length_append]; omega)
  grind

/-- A first part that reads nothing. -/
theorem bind_nil (h : Decodes r [] a) (hf : Decodes (f a) data c) :
    Decodes (r >>= f) data c :=
  h.bind hf

/-- A last part that reads nothing. -/
theorem bind_last (h : Decodes r data a) (hf : Decodes (f a) [] c) :
    Decodes (r >>= f) data c := by
  rw [← List.append_nil data]
  exact h.bind hf

theorem call {f : List β → Outcome ε (α × Nat)}
    (h : data.length ≤ usizeMax → ∀ after, f (data ++ after) = .ok (a, data.length)) :
    Decodes (Cursor.call f) data a := by
  intro before after hsize
  have hrange : (Outcome.range (before ++ (data ++ after)) before.length
      (before ++ (data ++ after)).length : Outcome ε (List β)) = .ok (data ++ after) := by
    rw [Outcome.range_to_end (by simp), List.drop_left]
  grind [Cursor.call, Outcome.bind, Outcome.add_of_le, Outcome.map]

/-- Calling a reader for the rest of the buffer. -/
theorem nested (h : Decodes r data a) : Decodes (Cursor.call fun buf => r buf 0) data a := by
  apply call
  intro hsize after
  have hrun := h [] after (by simpa using hsize)
  simpa using hrun

theorem bytes : Decodes (Cursor.bytes data.length : Cursor β ε (List β)) data data := by
  intro before after hsize
  grind [bytes_eq]

/-- A check for as many elements as are read next. -/
theorem ensure {data' : List β} {e : ε} {f : Unit → Cursor β ε α}
    (hf : Decodes (f ()) data' a) (hlen : data'.length = n) :
    Decodes (Cursor.ensure n e >>= f) data' a := by
  intro before after hsize
  subst hlen
  have hensure : (Cursor.ensure data'.length e : Cursor β ε Unit) (before ++ (data' ++ after))
      before.length = .ok ((), before.length) := by
    rw [ensure_eq hsize, if_neg (by simp only [List.length_append]; omega)]
  rw [bind_of_ok hensure, hf before after hsize]

theorem takeBytes (e : ε) :
    Decodes (Cursor.takeBytes data.length e : Cursor β ε (List β)) data data :=
  ensure bytes rfl

theorem byte (b : β) (e : ε) : Decodes (Cursor.byte e : Cursor β ε β) [b] b := by
  intro before after hsize
  have hlt : before.length < (before ++ ([b] ++ after)).length := by simp
  have hadd : (Outcome.add before.length 1 : Outcome ε Nat) = .ok (before.length + 1) :=
    Outcome.add_of_le hsize
  rw [Cursor.byte, if_neg (by omega), Outcome.index_of_lt hlt, Outcome.bind, hadd]
  simp [Outcome.map]

end Decodes

end Cursor

end Starfish
