import Starfish.Http.H1.Lines

/-!
# What a byte changes

A parser fills its message from front to back: the start line is settled once it has been
read, the headers once the head has ended, and the body grows by at most the byte that is read
(`byte_changes`). Over a run, what is settled stays (`run_start_eq`, `run_headers_eq`), and a
body is shorter than what was consumed for it (`body_length_lt`).
-/

namespace Starfish.Http.H1

open Quic (Bytes)
open Incremental

variable {S : Type}

namespace MessageParser

def PastStart (p : MessageParser S) : Prop := p.state ≠ .requestLine ∧ p.state ≠ .statusLine

def PastHead (p : MessageParser S) : Prop := PastStart p ∧ p.state ≠ .headerLine

structure SameHead (p q : MessageParser S) : Prop where
  start : q.start = p.start
  headers : q.headers = p.headers

structure Tame (g : Grammar S) (bodyReady : MessageParser S → Prop) : Prop where
  determine : ∀ p q, g.determineBodyKind p = .ok q → SameHead p q ∧ q.body = p.body ∧ PastHead q
  body : ∀ p b q ended, p.state = .body → bodyReady p → bodyByte g p b = .ok (q, ended) →
    SameHead p q ∧ q.body = p.body ++ [b] ∧ PastHead q

structure Changes (p q : MessageParser S) (b : UInt8) : Prop where
  start : PastStart p → PastStart q ∧ q.start = p.start
  head : PastHead p → PastHead q ∧ q.headers = p.headers
  body : q.body = p.body ∨ (PastHead p ∧ q.body = p.body ++ [b])

variable {p q : MessageParser S} {b : UInt8}

theorem changes_of_pastHead (hp : PastHead p) (hq : PastHead q) (hsame : SameHead p q)
    (hbody : q.body = p.body ∨ q.body = p.body ++ [b]) :
    Changes p q b :=
  ⟨fun _ => ⟨hq.1, hsame.start⟩, fun _ => ⟨hq, hsame.headers⟩, hbody.imp_right fun h => ⟨hp, h⟩⟩

theorem pushHeadByte_same (h : p.pushHeadByte b = .ok q) :
    SameHead p q ∧ q.body = p.body := by
  rw [pushHeadByte] at h
  split at h
  · cases h
  · cases h
    exact ⟨⟨rfl, rfl⟩, rfl⟩

theorem parseHeader_same {line : Bytes} (h : p.parseHeader line = .ok q) :
    q.start = p.start ∧ q.body = p.body := by
  grind [parseHeader]

variable {ended : Bool}

theorem chunkSizeByte_same (h : chunkSizeByte p b = .ok (q, ended)) :
    SameHead p q ∧ q.body = p.body := by
  rw [chunkSizeByte] at h
  split at h
  · cases h
  · cases ended with
    | false =>
      rw [(onLine_eq_false h).1]
      exact ⟨⟨rfl, rfl⟩, rfl⟩
    | true =>
      obtain ⟨content, -, hfinish⟩ := onLine_eq_true h
      obtain ⟨size, -, rfl⟩ := Outcome.map_eq_ok.mp hfinish
      split <;> exact ⟨⟨rfl, rfl⟩, rfl⟩

theorem chunkTrailerByte_same (h : chunkTrailerByte p b = .ok (q, ended)) :
    SameHead p q ∧ q.body = p.body := by
  cases ended with
  | false =>
    rw [(onLine_eq_false h).1]
    exact ⟨⟨rfl, rfl⟩, rfl⟩
  | true =>
    obtain ⟨content, -, hfinish⟩ := onLine_eq_true h
    cases hfinish
    exact ⟨⟨rfl, rfl⟩, rfl⟩

theorem startLineByte_changes {g : Grammar S} (hp : ¬PastStart p)
    (h : startLineByte g p b = .ok (q, ended)) : Changes p q b := by
  refine ⟨fun hpast => absurd hpast hp, fun hpast => absurd hpast.1 hp, .inl ?_⟩
  obtain ⟨r, hr, hline⟩ := headByte_eq_ok h
  obtain ⟨-, hbody⟩ := pushHeadByte_same hr
  cases ended with
  | false =>
    rw [(onLine_eq_false hline).1]
    exact hbody
  | true =>
    obtain ⟨content, -, hfinish⟩ := onLine_eq_true hline
    obtain ⟨start, -, rfl⟩ := Outcome.map_eq_ok.mp hfinish
    exact hbody

theorem headerLineByte_changes {g : Grammar S} {bodyReady : MessageParser S → Prop}
    (hg : Tame g bodyReady) (hp : p.state = .headerLine) (h : headerLineByte g p b = .ok (q, ended)) :
    Changes p q b := by
  obtain ⟨r, hr, hline⟩ := headByte_eq_ok h
  obtain ⟨hsame, hbody⟩ := pushHeadByte_same hr
  have hstate : r.state = .headerLine := (pushHeadByte_state hr).trans hp
  -- the head has not been read yet
  have hkeep : ∀ t : MessageParser S, PastStart t → t.start = r.start → t.body = r.body →
      Changes p t b := fun t hpast hstart ht =>
    ⟨fun _ => ⟨hpast, hstart.trans hsame.start⟩, fun hpast => absurd hp hpast.2,
      .inl (ht.trans hbody)⟩
  cases ended with
  | false =>
    rw [(onLine_eq_false hline).1]
    exact hkeep r (by simp [PastStart, hstate]) rfl rfl
  | true =>
    obtain ⟨content, -, hfinish⟩ := onLine_eq_true hline
    rw [Outcome.ofExcept_ok_iff] at hfinish
    split at hfinish
    · obtain ⟨hdet, hb, hpast⟩ := hg.determine _ _ hfinish
      exact hkeep q hpast.1 hdet.start hb
    · grind [parseHeader_same, parseHeader_state, PastStart]

theorem byte_changes {g : Grammar S} {bodyReady : MessageParser S → Prop} (hg : Tame g bodyReady)
    (hp : Ready g bodyReady p) (h : byte g p b = .ok (q, ended)) : Changes p q b := by
  rw [byte] at h
  cases hstate : p.state with
  | requestLine | statusLine =>
    grind [startLineByte_changes, PastStart]
  | headerLine =>
    grind [headerLineByte_changes]
  | body =>
    grind [cases Ready, cases Tame, changes_of_pastHead, PastHead, PastStart]
  | chunkSize =>
    grind [PastHead, chunkSizeByte_cases, PastStart, chunkSizeByte_same, changes_of_pastHead]
  | chunkData remaining =>
    simp only [hstate] at h
    rw [chunkDataByte_eq hstate (hp.chunkData remaining hstate)] at h
    cases h
    refine changes_of_pastHead (by simp [PastHead, PastStart, hstate]) ?_ ⟨rfl, rfl⟩ (.inr rfl)
    grind [PastHead, PastStart, chunkByte]
  | chunkTrailer =>
    simp only [hstate] at h
    have hq := chunkTrailerByte_state h
    grind [PastHead, PastStart, chunkTrailerByte_same, changes_of_pastHead]
  | complete =>
    simp only [hstate] at h
    cases h
    exact changes_of_pastHead (by simp [PastHead, PastStart, hstate])
      (by simp [PastHead, PastStart, hstate]) ⟨rfl, rfl⟩ (.inl rfl)

/-! ## Runs -/

section Runs

variable {g : Grammar S} {bodyReady : MessageParser S → Prop}

variable {q p : MessageParser S} {data : Bytes} {n : Nat}

theorem run_invariant (hg : Lawful g bodyReady) {I : MessageParser S → Prop}
    (hI : ∀ p b q ended, Ready g bodyReady p → I p → byte g p b = .ok (q, ended) → I q)
    (hp : Ready g bodyReady p) (h : I p) (hrun : (machine g).run p data = .ok (n, q)) : I q := by
  refine (run_keeps (I := fun p => Ready g bodyReady p ∧ I p) ?_ ⟨hp, h⟩ hrun).2
  rintro r b t ⟨hr, hIr⟩ hopen hstep
  obtain ⟨⟨t', ended⟩, hbyte, rfl⟩ := Outcome.map_eq_ok.mp hstep
  grind [step_ready]

theorem run_start_eq (hg : Lawful g bodyReady) (ht : Tame g bodyReady) (hp : Ready g bodyReady p)
    (hpast : PastStart p) (hrun : (machine g).run p data = .ok (n, q)) : q.start = p.start := by
  refine (run_invariant (I := fun r => PastStart r ∧ r.start = p.start) hg ?_ hp
    ⟨hpast, rfl⟩ hrun).2
  rintro r b t ended hr ⟨hpr, heq⟩ hbyte
  obtain ⟨hpt, ht'⟩ := (byte_changes ht hr hbyte).start hpr
  exact ⟨hpt, ht'.trans heq⟩

theorem run_headers_eq (hg : Lawful g bodyReady) (ht : Tame g bodyReady) (hp : Ready g bodyReady p)
    (hpast : PastHead p) (hrun : (machine g).run p data = .ok (n, q)) : q.headers = p.headers := by
  refine (run_invariant (I := fun r => PastHead r ∧ r.headers = p.headers) hg ?_ hp
    ⟨hpast, rfl⟩ hrun).2
  rintro r b t ended hr ⟨hpr, heq⟩ hbyte
  obtain ⟨hpt, ht'⟩ := (byte_changes ht hr hbyte).head hpr
  exact ⟨hpt, ht'.trans heq⟩

theorem run_body_length_le (hg : Lawful g bodyReady) (ht : Tame g bodyReady)
    (hp : Ready g bodyReady p) (hrun : (machine g).run p data = .ok (n, q)) :
    q.body.length ≤ p.body.length + n := by
  induction data generalizing p n with
  | nil =>
    cases hrun
    exact Nat.le_refl _
  | cons b rest ih =>
    by_cases hdone : (machine g).done p = true
    · rw [Machine.run_of_done _ hdone] at hrun
      cases hrun
      exact Nat.le_refl _
    · rw [Bool.not_eq_true] at hdone
      rw [Machine.run_cons _ hdone] at hrun
      obtain ⟨r, hstep, hrest⟩ := Outcome.bind_eq_ok.mp hrun
      obtain ⟨k, rfl, hk⟩ := shift_eq_ok.mp hrest
      obtain ⟨⟨r', ended⟩, hbyte, rfl⟩ := Outcome.map_eq_ok.mp hstep
      have hle := ih (step_ready hg p b _ hp hdone hstep) hk
      rcases (byte_changes ht hp hbyte).body with h | ⟨-, h⟩
      all_goals grind

theorem body_length_lt (hg : Lawful g bodyReady) (ht : Tame g bodyReady)
    (hnew : Ready g bodyReady (new g)) (hfirst : g.first = .requestLine ∨ g.first = .statusLine)
    (hn : 0 < n) (hrun : (machine g).run (new g) data = .ok (n, q)) : q.body.length < n := by
  cases data with
  | nil =>
    cases hrun
    omega
  | cons b rest =>
    have hopen : (machine g).done (new g) = false := by
      rcases hfirst with h | h <;> simp [machine, isComplete, new, h]
    rw [Machine.run_cons _ hopen] at hrun
    obtain ⟨r, hstep, hrest⟩ := Outcome.bind_eq_ok.mp hrun
    obtain ⟨k, rfl, hk⟩ := shift_eq_ok.mp hrest
    obtain ⟨⟨r', ended⟩, hbyte, rfl⟩ := Outcome.map_eq_ok.mp hstep
    have hle := run_body_length_le hg ht (step_ready hg _ b _ hnew hopen hstep) hk
    rcases (byte_changes ht hnew hbyte).body with h | ⟨hpast, -⟩
    · rw [h] at hle
      change _ ≤ 0 + k at hle
      omega
    · rcases hfirst with h | h
      · exact absurd h hpast.1.1
      · exact absurd h hpast.1.2

end Runs

end MessageParser

/-! ## Requests and responses -/

open MessageParser

theorem frameByHeaders_same {p q otherwise : MessageParser S}
    (h : p.frameByHeaders otherwise = .ok q)
    (ho : SameHead p otherwise ∧ otherwise.body = p.body ∧ PastHead otherwise) :
    SameHead p q ∧ q.body = p.body ∧ PastHead q := by
  rw [frameByHeaders] at h
  split at h
  · cases h
    exact ⟨⟨rfl, rfl⟩, rfl, by simp [PastHead, PastStart]⟩
  · split at h
    · cases h
    · split at h <;> cases h <;> exact ⟨⟨rfl, rfl⟩, rfl, by simp [PastHead, PastStart]⟩
    · cases h
      exact ho

theorem fixed_same {g : Grammar S}
    (hread : ∀ p data, FixedReady p → g.readBody p data = p.readFixed data)
    {p q : MessageParser S} {b : UInt8} {ended : Bool} (hstate : p.state = .body)
    (hready : FixedReady p) (h : bodyByte g p b = .ok (q, ended)) :
    SameHead p q ∧ q.body = p.body ++ [b] ∧ PastHead q := by
  rw [bodyByte_of_fixed hread hstate hready] at h
  cases h
  refine ⟨⟨rfl, rfl⟩, rfl, ?_⟩
  grind [PastHead, PastStart, fixedByte]

theorem RequestParser.tame : Tame RequestParser.grammar FixedReady where
  determine p q h := by
    exact frameByHeaders_same h ⟨⟨rfl, rfl⟩, rfl, by simp [PastHead, PastStart]⟩
  body _ _ _ _ hstate hready h := fixed_same (fun _ _ _ => rfl) hstate hready h

theorem ResponseParser.tame : Tame ResponseParser.grammar ResponseParser.BodyReady where
  determine p q h := by
    change ResponseParser.determineBodyKind p = .ok q at h
    rw [ResponseParser.determineBodyKind] at h
    split at h
    · cases h
      exact ⟨⟨rfl, rfl⟩, rfl, by simp [PastHead, PastStart]⟩
    · exact frameByHeaders_same h ⟨⟨rfl, rfl⟩, rfl, by simp [PastHead, PastStart]⟩
  body p b q ended hstate hready h := by
    rcases hready with hready | hready
    · exact fixed_same ResponseParser.readBody_of_fixed hstate hready h
    · rw [ResponseParser.bodyByte_untilClose hstate hready] at h
      cases h
      exact ⟨⟨rfl, rfl⟩, rfl, by simp [PastHead, PastStart, hstate]⟩

end Starfish.Http.H1
