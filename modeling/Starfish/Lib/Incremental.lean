import Starfish.Lib.Cursor

/-!
# Incremental parsers

A parser that reads a stream as it arrives keeps its state between calls and consumes
what each call brings, in blocks: a line, a piece of a body. A `Machine` is the same
parser one symbol at a time. A block that does what the machine does on the symbols it
consumes may be put in its place (`Advances`); a loop of such blocks then is a run of the
machine (`loop_eq_feed`), and a run does not see how its input was cut
(`feedPieces_eq_feed`).
-/

namespace Starfish.Incremental

open Outcome

/-- A parser that consumes one symbol at a time until it is done. -/
structure Machine (σ α ε : Type) where
  step : σ → α → Outcome ε σ
  done : σ → Bool

variable {σ α ε : Type}

/-- Count `n` more symbols. -/
def shift (n : Nat) (x : Outcome ε (Nat × σ)) : Outcome ε (Nat × σ) :=
  x.map fun r => (n + r.1, r.2)

@[simp] theorem shift_ok (n k : Nat) (s : σ) :
    shift n (.ok (k, s) : Outcome ε (Nat × σ)) = .ok (n + k, s) := rfl

@[simp] theorem shift_error (n : Nat) (e : ε) :
    shift n (.error e : Outcome ε (Nat × σ)) = .error e := rfl

@[simp] theorem shift_panic (n : Nat) : shift n (.panic : Outcome ε (Nat × σ)) = .panic := rfl

@[simp] theorem shift_zero (x : Outcome ε (Nat × σ)) : shift 0 x = x := by
  cases x <;> simp [shift, Outcome.map]

@[simp] theorem shift_shift (n k : Nat) (x : Outcome ε (Nat × σ)) :
    shift n (shift k x) = shift (n + k) x := by
  cases x <;> simp [shift, Outcome.map, Nat.add_assoc]

theorem shift_eq_ok {n k : Nat} {s : σ} {x : Outcome ε (Nat × σ)} :
    shift n x = .ok (k, s) ↔ ∃ l, k = n + l ∧ x = .ok (l, s) := by
  cases x with
  | ok r =>
    grind [shift_ok]
  | error e => simp
  | panic => simp

theorem bind_ok {τ : Type} (t : τ) (f : τ → Outcome ε (Nat × σ)) : (Outcome.ok t).bind f = f t :=
  rfl

theorem shift_bind {τ : Type} (n : Nat) (x : Outcome ε τ) (f : τ → Outcome ε (Nat × σ)) :
    shift n (x.bind f) = x.bind fun t => shift n (f t) := by
  cases x <;> rfl

/-- Go on from where a part of the input was consumed. -/
def followed (x : Outcome ε (Nat × σ)) (next : Nat → σ → Outcome ε (Nat × σ)) :
    Outcome ε (Nat × σ) :=
  x.bind fun r => shift r.1 (next r.1 r.2)

@[simp] theorem followed_ok (n : Nat) (s : σ) (next : Nat → σ → Outcome ε (Nat × σ)) :
    followed (.ok (n, s)) next = shift n (next n s) := rfl

@[simp] theorem followed_error (e : ε) (next : Nat → σ → Outcome ε (Nat × σ)) :
    followed (.error e) next = .error e := rfl

@[simp] theorem followed_panic (next : Nat → σ → Outcome ε (Nat × σ)) :
    followed .panic next = .panic := rfl

theorem shift_followed (n : Nat) (x : Outcome ε (Nat × σ)) (next : σ → Outcome ε (Nat × σ)) :
    shift n (followed x fun _ s => next s) = followed (shift n x) fun _ s => next s := by
  cases x with
  | ok r => exact shift_shift n r.1 (next r.2)
  | error e => rfl
  | panic => rfl

namespace Machine

variable (m : Machine σ α ε)

/-- Consume symbols until the machine is done: how many, and the state then. -/
def run : σ → List α → Outcome ε (Nat × σ)
  | s, [] => .ok (0, s)
  | s, a :: rest =>
    if m.done s then .ok (0, s) else (m.step s a).bind fun t => shift 1 (run t rest)

/-- What a call to the parser answers: how much was consumed and whether it is done. -/
def feed (s : σ) (data : List α) : Outcome ε ((Nat × Bool) × σ) :=
  (m.run s data).map fun r => ((r.1, m.done r.2), r.2)

@[simp] theorem run_nil (s : σ) : m.run s [] = .ok (0, s) := rfl

variable {s : σ}

theorem run_of_done (h : m.done s = true) (data : List α) : m.run s data = .ok (0, s) := by
  cases data with
  | nil => rfl
  | cons a rest => rw [run, if_pos h]

theorem run_cons (h : m.done s = false) (a : α) (rest : List α) :
    m.run s (a :: rest) = (m.step s a).bind fun t => shift 1 (m.run t rest) := by
  rw [run, if_neg (by rw [h]; exact Bool.false_ne_true)]

variable {t : σ} {n : Nat}

theorem run_length {data : List α} (h : m.run s data = .ok (n, t)) :
    n ≤ data.length ∧ (m.done t = false → n = data.length) := by
  induction data generalizing s n with
  | nil =>
    cases h
    simp
  | cons a rest ih =>
    rw [run] at h
    split at h
    next hdone =>
        cases h
        simp [hdone]
    next =>
        obtain ⟨u, -, hu⟩ := bind_eq_ok.mp h
        obtain ⟨k, rfl, hr⟩ := shift_eq_ok.mp hu
        obtain ⟨hle, hall⟩ := ih hr
        refine ⟨by rw [List.length_cons]; omega, fun hd => ?_⟩
        rw [hall hd, List.length_cons, Nat.add_comm]

/-- A run over two parts is a run over the first and, from there, over the second. -/
theorem run_append (s : σ) (front back : List α) :
    m.run s (front ++ back) = followed (m.run s front) fun _ t => m.run t back := by
  induction front generalizing s with
  | nil => simp
  | cons a rest ih =>
    by_cases hdone : m.done s = true
    · rw [m.run_of_done hdone, m.run_of_done hdone, followed_ok, m.run_of_done hdone, shift_ok]
    · rw [Bool.not_eq_true] at hdone
      rw [List.cons_append, m.run_cons hdone, m.run_cons hdone]
      cases m.step s a with
      | ok t => rw [Outcome.bind, Outcome.bind, ih, shift_followed]
      | error e => rfl
      | panic => rfl

variable {front back : List α}

theorem run_append_eq_ok (h : m.run s (front ++ back) = .ok (n, t)) :
    ∃ k u l, m.run s front = .ok (k, u) ∧ m.run u back = .ok (l, t) ∧ n = k + l := by
  rw [run_append] at h
  obtain ⟨⟨k, u⟩, hfront, hback⟩ := bind_eq_ok.mp h
  obtain ⟨l, hl, hrun⟩ := shift_eq_ok.mp hback
  exact ⟨k, u, l, hfront, hrun, hl⟩

/-- A machine that is not done consumes something. -/
theorem run_pos {data : List α} (hs : m.done s = false) (hne : data ≠ [])
    (h : m.run s data = .ok (n, t)) : 0 < n := by
  cases data with
  | nil => exact absurd rfl hne
  | cons a rest =>
    rw [m.run_cons hs] at h
    obtain ⟨u, -, hu⟩ := bind_eq_ok.mp h
    obtain ⟨k, rfl, -⟩ := shift_eq_ok.mp hu
    omega

/-- A run that ends in the second part has gone through the first. -/
theorem run_of_append_lt (h : m.run s (front ++ back) = .ok (n, t)) (hn : front.length < n) :
    ∃ u, m.run s front = .ok (front.length, u) ∧ m.done u = false ∧
      m.run u back = .ok (n - front.length, t) := by
  obtain ⟨k, u, l, hfront, hrun, hl⟩ := m.run_append_eq_ok h
  obtain ⟨hk, hall⟩ := m.run_length hfront
  cases hdone : m.done u with
  | true =>
    rw [m.run_of_done hdone] at hrun
    cases hrun
    omega
  | false =>
    grind

/-- A run that is done within the first part does not see the second. -/
theorem run_of_append_le (h : m.run s (front ++ back) = .ok (n, t)) (hdone : m.done t = true)
    (hn : n ≤ front.length) :
    m.run s front = .ok (n, t) := by
  obtain ⟨k, u, l, hfront, hrun, rfl⟩ := m.run_append_eq_ok h
  obtain ⟨hk, hall⟩ := m.run_length hfront
  cases hu : m.done u with
  | true =>
    rw [m.run_of_done hu] at hrun
    cases hrun
    exact hfront
  | false =>
    have hkl : k = front.length := hall hu
    cases back with
    | nil =>
      cases hrun
      rw [hdone] at hu
      cases hu
    | cons b rest =>
      have hpos := m.run_pos hu (List.cons_ne_nil b rest) hrun
      omega

/-- A run goes on from where another machine with the same steps has stopped. -/
theorem run_of_stops (early : Machine σ α ε) (hstep : early.step = m.step)
    (hdone : ∀ s, m.done s = true → early.done s = true) (s : σ) (data : List α) :
    m.run s data = followed (early.run s data) fun n t => m.run t (data.drop n) := by
  induction data generalizing s with
  | nil => rfl
  | cons a rest ih =>
    cases hstop : early.done s with
    | true => rw [early.run_of_done hstop, followed_ok, shift_zero, List.drop_zero]
    | false =>
      have hopen : m.done s = false := by
        grind
      rw [m.run_cons hopen, early.run_cons hstop, hstep]
      cases m.step s a with
      | ok t =>
        simp only [Outcome.bind]
        rw [ih]
        cases early.run t rest with
        | ok r => rw [followed_ok, shift_shift, shift_ok, followed_ok, Nat.add_comm 1,
            List.drop_succ_cons]
        | error e => rfl
        | panic => rfl
      | error e => rfl
      | panic => rfl

end Machine

/-- Where in a list of pieces a position lies. -/
theorem exists_piece (pieces : List (List α)) {n : Nat} (hpos : 0 < n)
    (hn : n ≤ pieces.flatten.length) :
    ∃ front piece back, pieces = front ++ piece :: back ∧ front.flatten.length < n ∧
      n ≤ front.flatten.length + piece.length := by
  induction pieces generalizing n with
  | nil => simp at hn; omega
  | cons piece rest ih =>
    by_cases hin : n ≤ piece.length
    · exact ⟨[], piece, rest, rfl, by simpa using hpos, by simpa using hin⟩
    · rw [List.flatten_cons, List.length_append] at hn
      obtain ⟨front, last, back, rfl, hlt, hle⟩ := ih (n := n - piece.length) (by omega) (by omega)
      refine ⟨piece :: front, last, back, rfl, ?_, ?_⟩
      · rw [List.flatten_cons, List.length_append]
        omega
      · rw [List.flatten_cons, List.length_append]
        omega

/-! ## Blocks -/

section Blocks

variable (m : Machine σ α ε) (I : σ → Prop)

/-- A block consumes symbols of its input, at least one, and does what the machine does on
them. -/
structure Advances (s : σ) (data : List α) (x : Outcome ε (Nat × σ)) : Prop where
  agrees : m.run s data = followed x fun n t => m.run t (data.drop n)
  consumes : ∀ n t, x = .ok (n, t) → 0 < n ∧ n ≤ data.length ∧ I t

/-- Turns of a parser over `data` from `pos` on: as long as there is input and the parser is
not done, the block for its state is called on the rest of the input. No answer means that the
loop has not ended within the given number of turns. -/
def loop (block : σ → List α → Outcome ε (Nat × σ)) (done : σ → Bool) (data : List α) :
    Nat → σ → Nat → Option (Outcome ε ((Nat × Bool) × σ))
  | 0, _, _ => none
  | fuel + 1, s, pos =>
    if pos < data.length ∧ done s = false then
      match block s (data.drop pos) with
      | .ok (n, t) => loop block done data fuel t (pos + n)
      | .error e => some (.error e)
      | .panic => some .panic
    else some (.ok ((pos, done s), s))

variable {m I} {block : σ → List α → Outcome ε (Nat × σ)}

variable {s : σ}

/-- A loop of blocks ends and is a run of the machine. -/
theorem loop_eq
    (hblock : ∀ s data, I s → m.done s = false → data ≠ [] → Advances m I s data (block s data))
    {data : List α} {fuel pos : Nat} (hI : I s) (hpos : pos ≤ data.length)
    (hfuel : data.length < pos + fuel) :
    loop block m.done data fuel s pos =
      some ((shift pos (m.run s (data.drop pos))).map fun r => ((r.1, m.done r.2), r.2)) := by
  induction fuel generalizing s pos with
  | zero => omega
  | succ fuel ih =>
    rw [loop]
    by_cases hgo : pos < data.length ∧ m.done s = false
    · rw [if_pos hgo]
      have hne : data.drop pos ≠ [] := by
        rw [Ne, List.drop_eq_nil_iff]
        omega
      obtain ⟨hagrees, hconsumes⟩ := hblock s _ hI hgo.2 hne
      rw [hagrees]
      cases hb : block s (data.drop pos) with
      | ok r =>
        grind [followed_ok, shift_shift, List.drop_drop]
      | error e => rfl
      | panic => rfl
    · rw [if_neg hgo]
      by_cases hdone : m.done s = true
      · simp [m.run_of_done hdone, Outcome.map]
      · have hend : data.drop pos = [] := by
          grind
        simp [hend, Outcome.map]

/-- One turn per symbol, and one to see the end, are enough. -/
theorem loop_eq_feed
    (hblock : ∀ s data, I s → m.done s = false → data ≠ [] → Advances m I s data (block s data))
    (hI : I s) (data : List α) :
    loop block m.done data (data.length + 1) s 0 = some (m.feed s data) := by
  rw [loop_eq hblock hI (Nat.zero_le _) (by omega), List.drop_zero, shift_zero, Machine.feed]

/-- Symbol by symbol, a block's condition is kept. -/
theorem run_keeps (hstep : ∀ s a t, I s → m.done s = false → m.step s a = .ok t → I t) {t : σ}
    {data : List α} {n : Nat} (hI : I s) (h : m.run s data = .ok (n, t)) : I t := by
  induction data generalizing s n with
  | nil =>
    cases h
    exact hI
  | cons a rest ih =>
    by_cases hdone : m.done s = true
    · rw [m.run_of_done hdone] at h
      cases h
      exact hI
    · rw [Bool.not_eq_true] at hdone
      rw [m.run_cons hdone] at h
      obtain ⟨u, hs, hu⟩ := bind_eq_ok.mp h
      obtain ⟨k, -, hr⟩ := shift_eq_ok.mp hu
      exact ih (hstep s a u hI hdone hs) hr

/-- A machine whose steps are those of another one, seen through `f`, runs like it. -/
theorem run_map {τ : Type} {m' : Machine τ α ε} {f : σ → τ}
    (hstep : ∀ s a t, I s → m.done s = false → m.step s a = .ok t → I t)
    (hmap : ∀ s a, I s → m.done s = false → (m.step s a).map f = m'.step (f s) a)
    (hdone : ∀ s, I s → m'.done (f s) = m.done s) (hI : I s) (data : List α) :
    (m.run s data).map (fun r => (r.1, f r.2)) = m'.run (f s) data := by
  induction data generalizing s with
  | nil => rfl
  | cons a rest ih =>
    by_cases hs : m.done s = true
    · rw [m.run_of_done hs, m'.run_of_done ((hdone s hI).trans hs)]
      rfl
    · rw [Bool.not_eq_true] at hs
      rw [m.run_cons hs, m'.run_cons ((hdone s hI).trans hs), ← hmap s a hI hs]
      cases hstep' : m.step s a with
      | ok t =>
        have hrest := ih (hstep s a t hI hs hstep')
        simp only [Outcome.bind, Outcome.map, ← hrest]
        cases m.run t rest <;> rfl
      | error e => rfl
      | panic => rfl

end Blocks

/-! ## Blocks that go symbol by symbol -/

section Scan

/-- Handle symbols one after the other until one of them ends the block. -/
def scan (f : σ → α → Outcome ε (σ × Bool)) : σ → List α → Outcome ε (Nat × σ)
  | s, [] => .ok (0, s)
  | s, a :: rest =>
    (f s a).bind fun r => if r.2 then .ok (1, r.1) else shift 1 (scan f r.1 rest)

variable {m : Machine σ α ε} {I K : σ → Prop} {f : σ → α → Outcome ε (σ × Bool)}

variable {s : σ}

/-- A function that handles the first symbol as `f` does and then goes on with the others is a
scan of `f`. -/
theorem eq_scan {block : σ → List α → Outcome ε (Nat × σ)}
    (hnil : ∀ s, K s → block s [] = .ok (0, s))
    (hcons : ∀ s a rest, K s → block s (a :: rest) = (f s a).bind fun r => if r.2 then .ok (1, r.1) else shift 1 (block r.1 rest))
    (hkeep : ∀ s a t, K s → f s a = .ok (t, false) → K t) (hK : K s) (data : List α) :
    block s data = scan f s data := by
  induction data generalizing s with
  | nil => exact hnil s hK
  | cons a rest ih =>
    rw [hcons s a rest hK, scan]
    cases hf : f s a with
    | ok r =>
      obtain ⟨t, ended⟩ := r
      cases ended with
      | true => rfl
      | false =>
        change shift 1 (block t rest) = shift 1 (scan f t rest)
        rw [ih (hkeep s a t hK hf)]
    | error e => rfl
    | panic => rfl

/-- Two scans that handle the symbols in the same way. -/
theorem scan_congr {h : σ → α → Outcome ε (σ × Bool)} (heq : ∀ s a, K s → h s a = f s a)
    (hkeep : ∀ s a t, K s → f s a = .ok (t, false) → K t) (hK : K s) (data : List α) :
    scan h s data = scan f s data :=
  eq_scan (fun _ _ => rfl) (fun s a rest hs => by rw [scan, heq s a hs]) hkeep hK data

theorem scan_agrees (hopen : ∀ s, K s → m.done s = false)
    (hstep : ∀ s a, K s → m.step s a = (f s a).map Prod.fst)
    (hkeep : ∀ s a t, K s → f s a = .ok (t, false) → K t) (hK : K s) (data : List α) :
    m.run s data = followed (scan f s data) fun n t => m.run t (data.drop n) := by
  induction data generalizing s with
  | nil => rfl
  | cons a rest ih =>
    rw [m.run_cons (hopen s hK), hstep s a hK, scan]
    cases hf : f s a with
    | ok r =>
      obtain ⟨t, ended⟩ := r
      cases ended with
      | true => rfl
      | false =>
        change shift 1 (m.run t rest) = followed (shift 1 (scan f t rest)) _
        rw [ih (hkeep s a t hK hf)]
        cases scan f t rest with
        | ok r =>
          grind [followed_ok, shift_ok, shift_shift]
        | error e => rfl
        | panic => rfl
    | error e => rfl
    | panic => rfl

theorem scan_consumes (hkeep : ∀ s a t, K s → f s a = .ok (t, false) → K t)
    (hend : ∀ s a t, K s → f s a = .ok (t, true) → I t) (hKI : ∀ s, K s → I s) {t : σ}
    {data : List α} {n : Nat} (hK : K s) (hne : data ≠ []) (h : scan f s data = .ok (n, t)) :
    0 < n ∧ n ≤ data.length ∧ I t := by
  induction data generalizing s n with
  | nil => exact absurd rfl hne
  | cons a rest ih =>
    obtain ⟨⟨u, ended⟩, hf, hu⟩ := bind_eq_ok.mp h
    cases ended with
    | true =>
      cases hu
      exact ⟨Nat.one_pos, by simp, hend s a _ hK hf⟩
    | false =>
      have hku := hkeep s a u hK hf
      obtain ⟨k, rfl, hr⟩ := shift_eq_ok.mp hu
      cases rest with
      | nil =>
        cases hr
        exact ⟨Nat.one_pos, by simp, hKI _ hku⟩
      | cons b rest =>
        grind

/-- A block that goes symbol by symbol, as long as the machine is in a state of the kind `K`. -/
theorem scan_advances (hopen : ∀ s, K s → m.done s = false)
    (hstep : ∀ s a, K s → m.step s a = (f s a).map Prod.fst)
    (hkeep : ∀ s a t, K s → f s a = .ok (t, false) → K t)
    (hend : ∀ s a t, K s → f s a = .ok (t, true) → I t) (hKI : ∀ s, K s → I s) {data : List α}
    (hK : K s) (hne : data ≠ []) : Advances m I s data (scan f s data) where
  agrees := scan_agrees hopen hstep hkeep hK data
  consumes := fun _ _ h => scan_consumes hkeep hend hKI hK hne h

end Scan

/-! ## Pieces -/

section Pieces

/-- Feed one piece after the other, up to the first one at which the parser fails or is done. -/
def feedPieces (feed : σ → List α → Option (Outcome ε ((Nat × Bool) × σ))) (done : σ → Bool) :
    σ → List (List α) → Option (Outcome ε ((Nat × Bool) × σ))
  | s, [] => some (.ok ((0, done s), s))
  | s, piece :: rest =>
    match feed s piece with
    | some (.ok ((n, false), t)) =>
      (feedPieces feed done t rest).map fun x => x.map fun r => ((n + r.1.1, r.1.2), r.2)
    | answer => answer

variable {m : Machine σ α ε} {I : σ → Prop}
  {feed : σ → List α → Option (Outcome ε ((Nat × Bool) × σ))}

/-- However the input is cut, the answer is that of the machine on the whole of it. -/
theorem feedPieces_eq_feed (hstep : ∀ s a t, I s → m.done s = false → m.step s a = .ok t → I t)
    (hfeed : ∀ s data, I s → feed s data = some (m.feed s data)) {s : σ} (hI : I s)
    (pieces : List (List α)) :
    feedPieces feed m.done s pieces = some (m.feed s pieces.flatten) := by
  induction pieces generalizing s with
  | nil => rfl
  | cons piece rest ih =>
    rw [feedPieces, hfeed s piece hI, List.flatten_cons]
    simp only [Machine.feed, m.run_append]
    cases hr : m.run s piece with
    | ok r =>
      obtain ⟨n, t⟩ := r
      cases hdone : m.done t with
      | true => simp [Outcome.map, hdone, m.run_of_done hdone]
      | false =>
        simp only [Outcome.map, hdone, ih (run_keeps hstep hI hr),
          Machine.feed, followed_ok]
        cases m.run t rest.flatten <;> rfl
    | error e => rfl
    | panic => rfl

end Pieces

end Starfish.Incremental
