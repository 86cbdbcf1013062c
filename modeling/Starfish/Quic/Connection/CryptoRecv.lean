import Starfish.Lib.OrdMap
import Starfish.Lib.Run
import Starfish.Lib.Segments
import Starfish.Quic.Frame

/-!
# The CRYPTO receive streams

CRYPTO data of each packet number space is handed to the TLS library in order.
Chunks that arrive early are kept by offset, the longer one if two start at the
same offset. The TLS library is a parameter: it takes bytes or fails.
-/

namespace Starfish.Quic

universe u

/-- What the connection needs of the TLS library: reading handshake bytes, and what
is done once all contiguous bytes have been read (transport parameters, keys and
handshake output). -/
structure TlsEngine (τ : Type u) where
  readHs : τ → Bytes → Except QuicError τ
  finish : τ → PacketNumberSpace → Except QuicError Unit × τ

structure CryptoSpace where
  recvOffset : Nat
  recvBuf : OrdMap Bytes

structure CryptoState (τ : Type u) where
  spaces : PacketNumberSpace → CryptoSpace
  tls : τ

/-- How a call ends; a failure to read is told from one of what comes after. -/
inductive CryptoOutcome
  | ok
  | failed (error : QuicError)
  | tlsFailed (error : QuicError)
deriving DecidableEq

def CryptoState.new {τ : Type u} (tls : τ) : CryptoState τ := ⟨fun _ => ⟨0, OrdMap.empty⟩, tls⟩

/-- Keep an early chunk; of two chunks at one offset the longer one stays. -/
def bufferCrypto (recvBuf : OrdMap Bytes) (offset : Nat) (data : Bytes) : OrdMap Bytes :=
  match recvBuf.find? offset with
  | some existing =>
    if existing.length < data.length then recvBuf.insert offset data else recvBuf
  | none => recvBuf.insert offset data

def evictStale (recvBuf : OrdMap Bytes) (nextExpected : Nat) : OrdMap Bytes :=
  recvBuf.filter fun start chunk => !decide (start + chunk.length ≤ nextExpected)

def nextChunk (recvBuf : OrdMap Bytes) (nextExpected : Nat) : Option (Nat × Bytes) :=
  (recvBuf.entries.filter fun e => decide (e.1 ≤ nextExpected)).reverse.find? fun e =>
    decide (nextExpected < e.1 + e.2.length)

section Drain

variable {τ : Type u} (tls : TlsEngine τ)

/-- Hand over buffered chunks while one continues what has been handed over. No
result means that the turns did not suffice. -/
def drainLoop : Nat → τ → CryptoSpace → Option (Except QuicError τ × CryptoSpace × List Bytes)
  | 0, _, _ => none
  | fuel + 1, state, s =>
    let recvBuf := evictStale s.recvBuf s.recvOffset
    match nextChunk recvBuf s.recvOffset with
    | none => some (.ok state, ⟨s.recvOffset, recvBuf⟩, [])
    | some (start, buffered) =>
      let useful := buffered.drop (s.recvOffset - start)
      let s := ⟨s.recvOffset + useful.length, recvBuf.erase start⟩
      match tls.readHs state useful with
      | .error e => some (.error e, s, [useful])
      | .ok state =>
        (drainLoop fuel state s).map fun res => (res.1, res.2.1, useful :: res.2.2)

theorem nextChunk_spec {recvBuf : OrdMap Bytes} {n start : Nat} {chunk : Bytes}
    (h : nextChunk recvBuf n = some (start, chunk)) :
    (start, chunk) ∈ recvBuf.entries ∧ start ≤ n ∧ n < start + chunk.length := by
  have hmem := List.mem_of_find?_eq_some h
  have hreach := List.find?_some h
  grind

theorem drainLoop_isSome {fuel : Nat} (state : τ) (s : CryptoSpace)
    (h : s.recvBuf.entries.length < fuel) : (drainLoop tls fuel state s).isSome := by
  induction fuel generalizing state s with
  | zero => omega
  | succ fuel ih =>
    simp only [drainLoop]
    split
    · rfl
    · next start buffered hnext =>
      split
      · rfl
      · rw [Option.isSome_map]
        apply ih
        have hfind := OrdMap.find?_eq_some_iff.mpr (nextChunk_spec hnext).1
        have hperm := (OrdMap.entries_erase_perm hfind).length_eq
        have hfilter : (evictStale s.recvBuf s.recvOffset).entries.length ≤
            s.recvBuf.entries.length := List.length_filter_le _ _
        grind

/-- The drain loop with turns enough for every buffered chunk. -/
def drain (state : τ) (s : CryptoSpace) : Except QuicError τ × CryptoSpace × List Bytes :=
  (drainLoop tls (s.recvBuf.entries.length + 1) state s).get
    (drainLoop_isSome tls state s (Nat.lt_succ_self _))

def CryptoState.setSpace (c : CryptoState τ) (space : PacketNumberSpace) (s : CryptoSpace) :
    CryptoState τ :=
  { c with spaces := fun other => if other = space then s else c.spaces other }

def processCryptoData (c : CryptoState τ) (space : PacketNumberSpace) (offset : Nat)
    (data : Bytes) : CryptoOutcome × CryptoState τ × List Bytes :=
  let s := c.spaces space
  let expected := s.recvOffset
  if offset + data.length ≤ expected then (.ok, c, [])
  else if expected < offset then
    (.ok, c.setSpace space { s with recvBuf := bufferCrypto s.recvBuf offset data }, [])
  else
    let useful := data.drop (expected - offset)
    let s := { s with recvOffset := expected + useful.length }
    match tls.readHs c.tls useful with
    | .error e => (.tlsFailed e, c.setSpace space s, [useful])
    | .ok state =>
      let drained := drain tls state s
      let c := c.setSpace space drained.2.1
      let handed := useful :: drained.2.2
      match drained.1 with
      | .error e => (.tlsFailed e, c, handed)
      | .ok state =>
        let finished := tls.finish state space
        let c := { c with tls := finished.2 }
        match finished.1 with
        | .error e => (.failed e, c, handed)
        | .ok () => (.ok, c, handed)

end Drain

/-- A CRYPTO frame in a packet number space. -/
structure CryptoEvent where
  space : PacketNumberSpace
  frame : CryptoFrame

def cryptoStep {τ : Type u} (tls : TlsEngine τ) (c : CryptoState τ) (e : CryptoEvent) :
    Option ((CryptoOutcome × List Bytes) × CryptoState τ) :=
  let res := processCryptoData tls c e.space e.frame.offset e.frame.data
  some ((res.1, res.2.2), res.2.1)

/-! ## What one call delivers -/

/-- From `s` to `s'` the slices `handed` were handed over and the chunks `new` came
in. No position is lost: it is either handed over or still buffered. -/
structure Delivers (S : Bytes) (s s' : CryptoSpace) (handed : List Bytes)
    (new : List (Segment UInt8)) : Prop where
  bytes : S.take s.recvOffset ++ handed.flatten = S.take s'.recvOffset
  within : s'.recvOffset ≤ S.length
  slices : ∀ e ∈ s'.recvBuf.entries, Segment.IsSlice S e
  positions : ∀ i, (i < s'.recvOffset ∨ Covered s'.recvBuf.entries i) ↔
    (i < s.recvOffset ∨ Covered s.recvBuf.entries i) ∨ Covered new i

/-- What a CRYPTO stream of `S` keeps between calls. -/
structure CryptoSpaceOk (S : Bytes) (s : CryptoSpace) : Prop where
  within : s.recvOffset ≤ S.length
  slices : ∀ e ∈ s.recvBuf.entries, Segment.IsSlice S e

/-- No buffered chunk reaches down to the next expected byte. -/
def Drained (s : CryptoSpace) : Prop := ∀ e ∈ s.recvBuf.entries, s.recvOffset < e.1

section Delivers

variable {S : Bytes} {s s' s'' : CryptoSpace} {handed handed' : List Bytes}
  {new new' : List (Segment UInt8)}

theorem Delivers.ok (h : Delivers S s s' handed new) : CryptoSpaceOk S s' := ⟨h.within, h.slices⟩

theorem Delivers.trans (h : Delivers S s s' handed new) (h' : Delivers S s' s'' handed' new') :
    Delivers S s s'' (handed ++ handed') (new ++ new') where
  bytes := by
    grind [cases Delivers]
  within := h'.within
  slices := h'.slices
  positions := fun i => by
    rw [h'.positions, h.positions, covered_append, or_assoc]

theorem Delivers.hand (hs : CryptoSpaceOk S s) {offset : Nat} {data : Bytes}
    (hslice : Segment.IsSlice S (offset, data)) (hle : offset ≤ s.recvOffset)
    (hreach : s.recvOffset < offset + data.length) :
    Delivers S s ⟨s.recvOffset + (data.drop (s.recvOffset - offset)).length, s.recvBuf⟩
      [data.drop (s.recvOffset - offset)] [(offset, data)] := by
  have huseful : Segment.IsSlice S (s.recvOffset, data.drop (s.recvOffset - offset)) := by
    have h := hslice.drop (s.recvOffset - offset)
    rwa [Nat.add_sub_cancel' hle] at h
  have hlen := List.length_drop (i := s.recvOffset - offset) (l := data)
  refine ⟨by simpa using huseful.take_append, ?_, hs.slices, fun i => ?_⟩
  · exact huseful.stop_le (List.ne_nil_of_length_pos (by dsimp only; omega))
  · simp only [covered_cons, covered_nil, Segment.Has]
    grind

theorem Delivers.drop (hs : CryptoSpaceOk S s) (recvBuf : OrdMap Bytes)
    (hsub : ∀ e ∈ recvBuf.entries, e ∈ s.recvBuf.entries)
    (hstale : ∀ e ∈ s.recvBuf.entries, e ∉ recvBuf.entries → Segment.stop e ≤ s.recvOffset) :
    Delivers S s ⟨s.recvOffset, recvBuf⟩ [] [] := by
  refine ⟨by simp, hs.within, fun e he => hs.slices e (hsub e he), fun i => ?_⟩
  simp only [covered_nil, or_false]
  constructor
  · rintro (h | ⟨e, he, hi⟩)
    · exact .inl h
    · exact .inr ⟨e, hsub e he, hi⟩
  · rintro (h | ⟨e, he, hi⟩)
    · exact .inl h
    · by_cases hkept : e ∈ recvBuf.entries
      · exact .inr ⟨e, hkept, hi⟩
      · exact .inl (Nat.lt_of_lt_of_le hi.2 (hstale e he hkept))

theorem Delivers.absorb (h : Delivers S s s' handed new)
    (hold : ∀ i, Covered new i → Covered s.recvBuf.entries i) : Delivers S s s' handed [] := by
  refine ⟨h.bytes, h.within, h.slices, fun i => (h.positions i).trans ?_⟩
  simp_all

theorem Delivers.takeChunk (hs : CryptoSpaceOk S s) {start : Nat} {chunk : Bytes}
    (hnext : nextChunk s.recvBuf s.recvOffset = some (start, chunk)) :
    Delivers S s ⟨s.recvOffset + (chunk.drop (s.recvOffset - start)).length,
      s.recvBuf.erase start⟩ [chunk.drop (s.recvOffset - start)] [] := by
  obtain ⟨hmem, hle, hreach⟩ := nextChunk_spec hnext
  have hhand := (Delivers.hand hs (hs.slices _ hmem) hle hreach).absorb fun i hi =>
    ⟨(start, chunk), hmem, by simpa using hi⟩
  have hlen := List.length_drop (i := s.recvOffset - start) (l := chunk)
  have hdrop := Delivers.drop hhand.ok (s.recvBuf.erase start)
    (fun e he => ((OrdMap.mem_erase e).mp he).1) fun e he hgone => ?_
  · simpa using hhand.trans hdrop
  · have hkey : e.1 = start := by
      by_contra hne
      exact hgone ((OrdMap.mem_erase e).mpr ⟨he, hne⟩)
    have hchunk : e = (start, chunk) :=
      Prod.ext hkey (OrdMap.entry_unique (hkey ▸ he : (start, e.2) ∈ s.recvBuf.entries) hmem)
    subst hchunk
    dsimp only [Segment.stop]
    omega

end Delivers

theorem mem_evictStale {recvBuf : OrdMap Bytes} {n : Nat} {e : Nat × Bytes} :
    e ∈ (evictStale recvBuf n).entries ↔ e ∈ recvBuf.entries ∧ n < Segment.stop e := by
  simp [evictStale, OrdMap.mem_filter, Segment.stop]

theorem Delivers.evict {S : Bytes} {s : CryptoSpace} (hs : CryptoSpaceOk S s) :
    Delivers S s ⟨s.recvOffset, evictStale s.recvBuf s.recvOffset⟩ [] [] := by
  refine .drop hs _ (fun e he => (mem_evictStale.mp he).1) fun e he hgone => ?_
  exact Nat.le_of_not_lt fun hlt => hgone (mem_evictStale.mpr ⟨he, hlt⟩)

theorem evictStale_drained {recvBuf : OrdMap Bytes} {n : Nat}
    (h : nextChunk (evictStale recvBuf n) n = none) : Drained ⟨n, evictStale recvBuf n⟩ := by
  intro e he
  refine Nat.lt_of_not_le fun hle => ?_
  have hreach := (mem_evictStale.mp he).2
  simp only [nextChunk, List.find?_eq_none, List.mem_reverse, List.mem_filter,
    decide_eq_true_eq] at h
  exact h e ⟨he, hle⟩ hreach

section Process

variable {τ : Type u} {tls : TlsEngine τ} {S : Bytes}

theorem drainLoop_spec {fuel : Nat} {state : τ} {s : CryptoSpace}
    {res : Except QuicError τ × CryptoSpace × List Bytes} (hs : CryptoSpaceOk S s)
    (h : drainLoop tls fuel state s = some res) :
    Delivers S s res.2.1 res.2.2 [] ∧ ∀ state', res.1 = .ok state' → Drained res.2.1 := by
  induction fuel generalizing state s res with
  | zero => simp [drainLoop] at h
  | succ fuel ih =>
    have hevict := Delivers.evict hs
    simp only [drainLoop] at h
    split at h
    · next hnext =>
      grind [evictStale_drained]
    · next start buffered hnext =>
      have htake := hevict.trans (Delivers.takeChunk hevict.ok hnext)
      split at h
      · cases h
        exact ⟨htake, fun _ h => nomatch h⟩
      · obtain ⟨rest, hrest, rfl⟩ := Option.map_eq_some_iff.mp h
        obtain ⟨hdel, hdone⟩ := ih htake.ok hrest
        exact ⟨htake.trans hdel, hdone⟩

theorem drain_spec (tls : TlsEngine τ) (state : τ) {s : CryptoSpace} (hs : CryptoSpaceOk S s) :
    Delivers S s (drain tls state s).2.1 (drain tls state s).2.2 [] ∧
      ∀ state', (drain tls state s).1 = .ok state' → Drained (drain tls state s).2.1 :=
  drainLoop_spec hs (Option.some_get _).symm

variable {offset : Nat} {data : Bytes}

theorem mem_bufferCrypto {recvBuf : OrdMap Bytes} {e : Nat × Bytes}
    (he : e ∈ (bufferCrypto recvBuf offset data).entries) :
    e = (offset, data) ∨ e ∈ recvBuf.entries := by
  unfold bufferCrypto at he
  split at he
  · split at he
    · exact ((OrdMap.mem_insert e).mp he).imp id And.left
    · exact .inr he
  · exact ((OrdMap.mem_insert e).mp he).imp id And.left

theorem covered_bufferCrypto (recvBuf : OrdMap Bytes) (offset : Nat) (data : Bytes) (i : Nat) :
    Covered (bufferCrypto recvBuf offset data).entries i ↔
      Covered recvBuf.entries i ∨ Segment.Has (offset, data) i := by
  constructor
  · rintro ⟨e, he, hi⟩
    rcases mem_bufferCrypto he with rfl | he
    · exact .inr hi
    · exact .inl ⟨e, he, hi⟩
  · unfold bufferCrypto
    split
    · next existing hfind =>
      have hmem := OrdMap.find?_eq_some_iff.mp hfind
      split
      · next hlonger =>
        rintro (⟨e, he, hi⟩ | hi)
        · by_cases hkey : e.1 = offset
          · have hval := OrdMap.entry_unique (hkey ▸ he : (offset, e.2) ∈ recvBuf.entries) hmem
            refine ⟨(offset, data), (OrdMap.mem_insert _).mpr (.inl rfl), ?_⟩
            grind [Segment.Has]
          · exact ⟨e, (OrdMap.mem_insert _).mpr (.inr ⟨he, hkey⟩), hi⟩
        · exact ⟨_, (OrdMap.mem_insert _).mpr (.inl rfl), hi⟩
      · next hshorter =>
        rintro (h | hi)
        · exact h
        · refine ⟨_, hmem, hi.1, ?_⟩
          have hlt := hi.2
          dsimp only at hlt ⊢
          omega
    · next hfind =>
      rintro (⟨e, he, hi⟩ | hi)
      · have hkey : e.1 ≠ offset := fun hkey =>
          OrdMap.find?_eq_none_iff.mp hfind e.2 (hkey ▸ he)
        exact ⟨e, (OrdMap.mem_insert _).mpr (.inr ⟨he, hkey⟩), hi⟩
      · exact ⟨_, (OrdMap.mem_insert _).mpr (.inl rfl), hi⟩

theorem Delivers.buffer {s : CryptoSpace} (hs : CryptoSpaceOk S s)
    (hslice : Segment.IsSlice S (offset, data)) :
    Delivers S s { s with recvBuf := bufferCrypto s.recvBuf offset data } [] [(offset, data)] := by
  refine ⟨by simp, hs.within, fun e he => ?_, fun i => ?_⟩
  · grind [cases CryptoSpaceOk, mem_bufferCrypto]
  · simp [covered_bufferCrypto, or_assoc]

theorem Delivers.duplicate {s : CryptoSpace} (hs : CryptoSpaceOk S s)
    (hold : offset + data.length ≤ s.recvOffset) :
    Delivers S s s [] [(offset, data)] := by
  refine ⟨by simp, hs.within, hs.slices, fun i => ?_⟩
  simp only [covered_cons, covered_nil, Segment.Has]
  grind

def CryptoOutcome.isTlsFailed : CryptoOutcome → Bool
  | .tlsFailed _ => true
  | .ok | .failed _ => false

/-- What a call does to the stream of its own space. A call that hands nothing over
never fails, and leaves a drained stream drained; one that hands bytes over drains
the stream unless TLS fails. -/
structure ProcessCrypto (S : Bytes) (s : CryptoSpace) (frame : Segment UInt8)
    (outcome : CryptoOutcome) (s' : CryptoSpace) (handed : List Bytes) : Prop where
  delivers : Delivers S s s' handed [frame]
  silent : handed = [] → Drained s → Drained s'
  drained : handed ≠ [] → outcome.isTlsFailed = false → Drained s'

@[simp] theorem setSpace_self (c : CryptoState τ) (space : PacketNumberSpace) (s : CryptoSpace) :
    (c.setSpace space s).spaces space = s := by
  simp [CryptoState.setSpace]

theorem setSpace_of_ne (c : CryptoState τ) {space other : PacketNumberSpace} (s : CryptoSpace)
    (h : other ≠ space) : (c.setSpace space s).spaces other = c.spaces other := by
  simp [CryptoState.setSpace, h]

theorem processCryptoData_spec (tls : TlsEngine τ) (c : CryptoState τ) (space : PacketNumberSpace) (offset : Nat)
    (data : Bytes) (hs : CryptoSpaceOk S (c.spaces space))
    (hslice : Segment.IsSlice S (offset, data)) :
    let res := processCryptoData tls c space offset data
    ProcessCrypto S (c.spaces space) (offset, data) res.1 (res.2.1.spaces space) res.2.2 := by
  unfold processCryptoData
  dsimp only
  split
  · next hdup => exact ⟨.duplicate hs hdup, fun _ h => h, fun h => absurd rfl h⟩
  · next hnew =>
    split
    · next hearly =>
      simp only [setSpace_self]
      refine ⟨.buffer hs hslice, fun _ hdrained e he => ?_, fun h => absurd rfl h⟩
      rcases mem_bufferCrypto he with rfl | he
      · exact hearly
      · exact hdrained e he
    · next hdue =>
      have hhand := Delivers.hand hs hslice (by omega) (by omega)
      split
      · simp only [setSpace_self]
        exact ⟨hhand, fun h => absurd h (by simp), fun _ h => nomatch h⟩
      · next state hread =>
        -- Both ends of the loop deliver what the frame and the buffer held.
        obtain ⟨hdrain, hdone⟩ := drain_spec tls state hhand.ok
        have hall := hhand.trans hdrain
        split
        · simp only [setSpace_self]
          exact ⟨hall, fun h => absurd h (by simp), fun _ h => nomatch h⟩
        · next state' hok =>
          have hdone := hdone state' hok
          split
          all_goals
            simp only [setSpace_self]
            exact ⟨hall, fun h => absurd h (by simp), fun _ _ => hdone⟩

theorem processCryptoData_other (tls : TlsEngine τ) (c : CryptoState τ) {space other : PacketNumberSpace}
    (offset : Nat) (data : Bytes) (h : other ≠ space) :
    (processCryptoData tls c space offset data).2.1.spaces other = c.spaces other := by
  unfold processCryptoData
  dsimp only
  repeat' split
  all_goals first | rfl | exact setSpace_of_ne c _ h

end Process

/-! ## Whole runs -/

abbrev CryptoTrace := List (CryptoEvent × CryptoOutcome × List Bytes)

def handedBytes (space : PacketNumberSpace) (tr : CryptoTrace) : Bytes :=
  tr.flatMap fun x => if x.1.space = space then x.2.2.flatten else []

def cryptoFrames (space : PacketNumberSpace) (tr : CryptoTrace) : List (Segment UInt8) :=
  (tr.filter fun x => decide (x.1.space = space)).map fun x => (x.1.frame.offset, x.1.frame.data)

def lastReadFailed (space : PacketNumberSpace) (tr : CryptoTrace) : Bool :=
  tr.foldl (fun failed x =>
    if x.1.space = space ∧ x.2.2 ≠ [] then x.2.1.isTlsFailed else failed) false

section Append

variable {space : PacketNumberSpace} (tr : CryptoTrace) {e : CryptoEvent}
  (r : CryptoOutcome × List Bytes)

theorem handedBytes_other (h : e.space ≠ space) :
    handedBytes space (tr ++ [(e, r)]) = handedBytes space tr := by
  simp [handedBytes, h]

theorem handedBytes_own (h : e.space = space) :
    handedBytes space (tr ++ [(e, r)]) = handedBytes space tr ++ r.2.flatten := by
  simp [handedBytes, h]

theorem cryptoFrames_other (h : e.space ≠ space) :
    cryptoFrames space (tr ++ [(e, r)]) = cryptoFrames space tr := by
  simp [cryptoFrames, h]

theorem cryptoFrames_own (h : e.space = space) :
    cryptoFrames space (tr ++ [(e, r)]) =
      cryptoFrames space tr ++ [(e.frame.offset, e.frame.data)] := by
  simp [cryptoFrames, h]

theorem lastReadFailed_other (h : e.space ≠ space) :
    lastReadFailed space (tr ++ [(e, r)]) = lastReadFailed space tr := by
  simp [lastReadFailed, h]

theorem lastReadFailed_own (h : e.space = space) :
    lastReadFailed space (tr ++ [(e, r)]) =
      if r.2 ≠ [] then r.1.isTlsFailed else lastReadFailed space tr := by
  simp [lastReadFailed, h]

end Append

/-- The bytes handed over are the first `recvOffset` bytes of `S`, all of them have
been carried by frames, and unless TLS has just failed no longer prefix has. -/
structure ExactCrypto {τ : Type u} (S : Bytes) (space : PacketNumberSpace) (tr : CryptoTrace)
    (c : CryptoState τ) : Prop where
  handed : handedBytes space tr = S.take (c.spaces space).recvOffset
  within : (c.spaces space).recvOffset ≤ S.length
  carried : ∀ i < (c.spaces space).recvOffset, Covered (cryptoFrames space tr) i
  longest : lastReadFailed space tr = false →
    ¬ Covered (cryptoFrames space tr) (c.spaces space).recvOffset

structure CryptoInv {τ : Type u} (S : Bytes) (space : PacketNumberSpace) (tr : CryptoTrace)
    (c : CryptoState τ) : Prop where
  handed : handedBytes space tr = S.take (c.spaces space).recvOffset
  ok : CryptoSpaceOk S (c.spaces space)
  positions : ∀ i, Covered (cryptoFrames space tr) i ↔
    i < (c.spaces space).recvOffset ∨ Covered (c.spaces space).recvBuf.entries i
  drained : lastReadFailed space tr = false → Drained (c.spaces space)

section Runs

variable {τ : Type u} {tls : TlsEngine τ} {S : Bytes} {space : PacketNumberSpace}
  {tr : CryptoTrace} {c : CryptoState τ}

theorem CryptoInv.init (state : τ) : CryptoInv S space [] (CryptoState.new state) where
  handed := by simp [handedBytes, CryptoState.new]
  ok := ⟨Nat.zero_le _, fun e he => by simp [CryptoState.new] at he⟩
  positions := fun i => by simp [cryptoFrames, CryptoState.new]
  drained := fun _ e he => by simp [CryptoState.new] at he

theorem CryptoInv.exact (h : CryptoInv S space tr c) : ExactCrypto S space tr c where
  handed := h.handed
  within := h.ok.within
  carried := fun i hi => (h.positions i).mpr (.inl hi)
  longest := fun hread hcov => by
    rcases (h.positions _).mp hcov with hlt | ⟨e, he, hi⟩
    · exact Nat.lt_irrefl _ hlt
    · exact Nat.not_lt.mpr hi.1 (h.drained hread e he)

theorem CryptoInv.step {e : CryptoEvent} {r : CryptoOutcome × List Bytes} {c' : CryptoState τ}
    (h : CryptoInv S space tr c)
    (hslice : e.space = space → Segment.IsSlice S (e.frame.offset, e.frame.data))
    (hstep : cryptoStep tls c e = some (r, c')) : CryptoInv S space (tr ++ [(e, r)]) c' := by
  cases hstep
  by_cases hspace : e.space = space
  · obtain rfl := hspace
    obtain ⟨hdel, hsilent, hdrained⟩ := processCryptoData_spec tls c e.space
      e.frame.offset e.frame.data h.ok (hslice rfl)
    refine ⟨?_, hdel.ok, fun i => ?_, ?_⟩
    · rw [handedBytes_own _ _ rfl, h.handed]
      exact hdel.bytes
    · rw [cryptoFrames_own _ _ rfl, covered_append, h.positions]
      exact (hdel.positions i).symm
    · rw [lastReadFailed_own _ _ rfl]
      split
      · next hhanded => exact hdrained hhanded
      · next hnone => exact fun hread => hsilent (Classical.not_not.mp hnone) (h.drained hread)
  · have hsame := processCryptoData_other tls c e.frame.offset e.frame.data
      (Ne.symm hspace)
    constructor
    all_goals
      simp only [handedBytes_other _ _ hspace, cryptoFrames_other _ _ hspace,
        lastReadFailed_other _ _ hspace, hsame]
    exacts [h.handed, h.ok, h.positions, h.drained]

/-- For every sequence of CRYPTO frames, in every order and with other spaces in
between, TLS has read exactly the longest prefix that the frames cover, each byte
once; every pass of the drain loop ends within one turn per buffered chunk and one
more. -/
theorem crypto_delivery_exact (tls : TlsEngine τ) (S : Bytes) (space : PacketNumberSpace)
    (state : τ) {tr : CryptoTrace} {c : CryptoState τ}
    (hrun : Run (cryptoStep tls)
      (fun _ e => e.space = space → Segment.IsSlice S (e.frame.offset, e.frame.data))
      (CryptoState.new state) tr c) :
    ExactCrypto S space tr c ∧ ∀ (state : τ) (s : CryptoSpace),
      (drainLoop tls (s.recvBuf.entries.length + 1) state s).isSome := by
  refine ⟨CryptoInv.exact ?_, fun state s => drainLoop_isSome tls state s (Nat.lt_succ_self _)⟩
  refine hrun.invariant (I := fun tr c => CryptoInv S space tr c) (CryptoInv.init state) ?_
  intro tr c e r c' hinv hslice hstep
  exact hinv.step hslice hstep

end Runs

def readingTls : TlsEngine Bytes where
  readHs := fun read data => .ok (read ++ data)
  finish := fun read _ => (.ok (), read)

/-- Two overlapping early chunks are drained by the frame that fills the gap. -/
theorem crypto_delivery_out_of_order :
    ∃ tr c, Run (cryptoStep readingTls)
        (fun _ e => e.space = .handshake →
          Segment.IsSlice [1, 2, 3, 4] (e.frame.offset, e.frame.data))
        (CryptoState.new []) tr c ∧
      c.tls = [1, 2, 3, 4] ∧ ExactCrypto [1, 2, 3, 4] .handshake tr c := by
  let ok : CryptoState Bytes → CryptoEvent → Prop := fun _ e => e.space = .handshake →
    Segment.IsSlice [1, 2, 3, 4] (e.frame.offset, e.frame.data)
  have hinit : Run (cryptoStep readingTls) ok (CryptoState.new []) [] _ := .nil
  have hrun := ((hinit.push ⟨.handshake, ⟨2, [3, 4]⟩⟩ rfl (fun _ => by decide)).push
    ⟨.handshake, ⟨1, [2, 3]⟩⟩ rfl (fun _ => by decide)).push
    ⟨.handshake, ⟨0, [1, 2]⟩⟩ rfl (fun _ => by decide)
  exact ⟨_, _, hrun, rfl, (crypto_delivery_exact readingTls _ _ _ hrun).1⟩

end Starfish.Quic
