import Starfish.Lib.OrdMap
import Starfish.Lib.Segments
import Starfish.Quic.Frame

/-!
# The receive buffer of a stream

Received data is kept as a map from offsets to segments. New data is first cut
around the segments that are there already, then inserted, and finally segments
that touch are joined.
-/

namespace Starfish.Quic

def cutSegment (existing : Nat × Nat) (segment : Segment UInt8) : List (Segment UInt8) :=
  let segmentEnd := segment.1 + segment.2.length
  let overlapStart := max segment.1 existing.1
  let overlapEnd := min segmentEnd existing.2
  if overlapEnd ≤ overlapStart then [segment]
  else
    (if segment.1 < overlapStart then
      [(segment.1, segment.2.take (overlapStart - segment.1))] else []) ++
    (if overlapEnd < segmentEnd then
      [(overlapEnd, segment.2.drop (overlapEnd - segment.1))] else [])

def cutAround : List (Nat × Nat) → List (Segment UInt8) → List (Segment UInt8)
  | [], pending => pending
  | existing :: rest, pending =>
    let next := pending.flatMap (cutSegment existing)
    if next.isEmpty then [] else cutAround rest next

/-- Join `last` with the segments that follow it in ascending order, as far as
they touch or overlap. -/
def mergeSegments (last : Segment UInt8) : List (Segment UInt8) → List (Segment UInt8)
  | [] => [last]
  | (start, data) :: rest =>
    let lastEnd := last.1 + last.2.length
    if start ≤ lastEnd then
      let overlap := lastEnd - start
      let merged := if overlap < data.length then last.2 ++ data.drop overlap else last.2
      mergeSegments (last.1, merged) rest
    else last :: mergeSegments (start, data) rest

def coalesceStreamRecvData (recvBuf : OrdMap Bytes) : OrdMap Bytes :=
  match recvBuf.entries with
  | [] => OrdMap.empty
  | first :: rest => OrdMap.empty.insertAll (mergeSegments first rest)

def bufferStreamRecvData (recvBuf : OrdMap Bytes) (offset : Nat) (data : Bytes) : OrdMap Bytes :=
  if data.isEmpty then recvBuf
  else
    let existingRanges := recvBuf.entries.map fun e => (e.1, e.1 + e.2.length)
    match cutAround existingRanges [(offset, data)] with
    -- nothing of the new data is new, and the buffer is not coalesced again
    | [] => recvBuf
    | pending => coalesceStreamRecvData (recvBuf.insertAll pending)

/-- What the buffer is between calls: nonempty slices of one string, no two of
which touch. -/
structure RecvBufferOk (S : Bytes) (recvBuf : OrdMap Bytes) : Prop where
  nonempty : ∀ e ∈ recvBuf.entries, e.2 ≠ []
  slice : ∀ e ∈ recvBuf.entries, Segment.IsSlice S e
  separated : Separated recvBuf.entries

theorem RecvBufferOk.empty (S : Bytes) : RecvBufferOk S OrdMap.empty :=
  ⟨by simp, by simp, by simp [Separated]⟩

variable {S : Bytes}

variable {recvBuf : OrdMap Bytes} {pending : List (Segment UInt8)}

theorem RecvBufferOk.erase (h : RecvBufferOk S recvBuf) (k : Nat) :
    RecvBufferOk S (recvBuf.erase k) where
  nonempty := fun e he => h.nonempty e ((OrdMap.mem_erase e).mp he).1
  slice := fun e he => h.slice e ((OrdMap.mem_erase e).mp he).1
  separated := List.Pairwise.filter _ h.separated

/-! ## Cutting -/

structure PendingOk (S : Bytes) (pending : List (Segment UInt8)) : Prop where
  nonempty : ∀ s ∈ pending, s.2 ≠ []
  slice : ∀ s ∈ pending, Segment.IsSlice S s
  ordered : pending.Pairwise fun a b => a.stop ≤ b.1

variable (existing : Nat × Nat)

theorem cutSegment_covered (segment : Segment UInt8) (i : Nat) :
    Covered (cutSegment existing segment) i ↔
      segment.Has i ∧ ¬ (existing.1 ≤ i ∧ i < existing.2) := by
  simp only [cutSegment]
  split
  · simp only [covered_cons, covered_nil, or_false, Segment.Has]
    omega
  · rw [covered_append]
    split <;> split <;>
      simp only [covered_cons, covered_nil, or_false, false_or, false_iff, Segment.Has,
        List.length_take, List.length_drop] <;>
      omega

theorem cutSegment_within {existing : Nat × Nat} {segment part : Segment UInt8}
    (h : part ∈ cutSegment existing segment) :
    segment.1 ≤ part.1 ∧ part.stop ≤ segment.stop := by
  simp only [cutSegment] at h
  split at h
  · grind
  · rcases List.mem_append.mp h with h | h
    all_goals
      split at h
      · obtain rfl := List.mem_singleton.mp h
        simp only [Segment.stop, List.length_take, List.length_drop]
        omega
      · cases h

theorem cutSegment_ok {segment : Segment UInt8} (hne : segment.2 ≠ [])
    (hslice : Segment.IsSlice S segment) :
    PendingOk S (cutSegment existing segment) := by
  simp only [cutSegment]
  split
  · exact ⟨by simpa using hne, by simpa using hslice, by simp⟩
  · next hoverlap =>
    refine ⟨?_, ?_, ?_⟩
    · intro s hs
      rw [← List.length_pos_iff]
      rcases List.mem_append.mp hs with hs | hs
      all_goals
        split at hs
        · obtain rfl := List.mem_singleton.mp hs
          simp only [List.length_take, List.length_drop]
          omega
        · cases hs
    · intro s hs
      rcases List.mem_append.mp hs with hs | hs
      · split at hs
        · obtain rfl := List.mem_singleton.mp hs
          exact hslice.take _
        · cases hs
      · split at hs
        · obtain rfl := List.mem_singleton.mp hs
          have hle : segment.1 ≤ min (segment.1 + segment.2.length) existing.2 := by omega
          have hd := hslice.drop (min (segment.1 + segment.2.length) existing.2 - segment.1)
          rwa [Nat.add_sub_cancel' hle] at hd
        · cases hs
    · split <;> split <;> simp [Segment.stop]
      omega

theorem flatMap_cutSegment_covered (pending : List (Segment UInt8)) (i : Nat) :
    Covered (pending.flatMap (cutSegment existing)) i ↔
      Covered pending i ∧ ¬ (existing.1 ≤ i ∧ i < existing.2) := by
  induction pending with
  | nil => simp
  | cons s rest ih =>
    rw [List.flatMap_cons, covered_append, covered_cons, cutSegment_covered, ih, or_and_right]

theorem PendingOk.flatMap_cutSegment (h : PendingOk S pending) (existing : Nat × Nat) :
    PendingOk S (pending.flatMap (cutSegment existing)) := by
  have hpart : ∀ s ∈ pending, PendingOk S (cutSegment existing s) := fun s hs =>
    cutSegment_ok existing (h.nonempty s hs) (h.slice s hs)
  refine ⟨?_, ?_, ?_⟩
  · grind [cases PendingOk]
  · grind [cases PendingOk]
  · refine List.pairwise_flatMap.mpr ⟨fun s hs => (hpart s hs).ordered, ?_⟩
    refine h.ordered.imp ?_
    intro a b hab x hx y hy
    have hxa := (cutSegment_within hx).2
    have hyb := (cutSegment_within hy).1
    omega

theorem cutAround_covered (ranges : List (Nat × Nat)) (pending : List (Segment UInt8)) (i : Nat) :
    Covered (cutAround ranges pending) i ↔
      Covered pending i ∧ ∀ r ∈ ranges, ¬ (r.1 ≤ i ∧ i < r.2) := by
  induction ranges generalizing pending with
  | nil => simp [cutAround]
  | cons r rest ih =>
    have hcut := flatMap_cutSegment_covered r pending i
    simp only [cutAround, List.forall_mem_cons]
    split
    · next hempty =>
      rw [List.isEmpty_iff.mp hempty, covered_nil] at hcut
      rw [covered_nil, ← and_assoc, ← hcut, false_and]
    · rw [ih, hcut, and_assoc]

theorem PendingOk.cutAround (ranges : List (Nat × Nat)) (h : PendingOk S pending) :
    PendingOk S (cutAround ranges pending) := by
  induction ranges generalizing pending with
  | nil => exact h
  | cons r rest ih =>
    simp only [Quic.cutAround]
    split
    · exact ⟨by simp, by simp, List.Pairwise.nil⟩
    · exact ih (h.flatMap_cutSegment r)

/-! ## Joining -/

structure AscendingOk (S : Bytes) (l : List (Segment UInt8)) : Prop where
  nonempty : ∀ s ∈ l, s.2 ≠ []
  slice : ∀ s ∈ l, Segment.IsSlice S s
  ascending : l.Pairwise fun a b => a.1 < b.1

theorem AscendingOk.tail {s : Segment UInt8} {l : List (Segment UInt8)} (h : AscendingOk S (s :: l)) :
    AscendingOk S l where
  nonempty := fun x hx => h.nonempty x (List.mem_cons_of_mem _ hx)
  slice := fun x hx => h.slice x (List.mem_cons_of_mem _ hx)
  ascending := h.ascending.of_cons

theorem merge_two {a b : Segment UInt8} (ha : Segment.IsSlice S a) (hb : Segment.IsSlice S b)
    (hstart : a.1 < b.1) (htouch : b.1 ≤ a.1 + a.2.length) :
    let merged := if a.1 + a.2.length - b.1 < b.2.length
      then a.2 ++ b.2.drop (a.1 + a.2.length - b.1) else a.2
    Segment.IsSlice S (a.1, merged) ∧ (a.2 ≠ [] → merged ≠ []) ∧
      ∀ i, Segment.Has (a.1, merged) i ↔ a.Has i ∨ b.Has i := by
  split
  · refine ⟨?_, by simp +contextual, ?_⟩
    · have hd := hb.drop (a.1 + a.2.length - b.1)
      grind [Segment.IsSlice.append]
    · intro i
      simp only [Segment.Has, List.length_append, List.length_drop]
      omega
  · grind [Segment.Has]

theorem mergeSegments_spec {last : Segment UInt8} {rest : List (Segment UInt8)}
    (h : AscendingOk S (last :: rest)) :
    (∀ s ∈ mergeSegments last rest, s.2 ≠ [] ∧ Segment.IsSlice S s ∧ last.1 ≤ s.1) ∧
      Separated (mergeSegments last rest) ∧
      ∀ i, Covered (mergeSegments last rest) i ↔ Covered (last :: rest) i := by
  induction rest generalizing last with
  | nil =>
    grind [cases AscendingOk, mergeSegments, Separated]
  | cons next rest ih =>
    have hnext : last.1 < next.1 := (List.pairwise_cons.mp h.ascending).1 next (by simp)
    simp only [mergeSegments]
    split
    · next htouch =>
      obtain ⟨hslice, hne, hhas⟩ :=
        merge_two (h.slice last (by simp)) (h.slice next (by simp)) hnext htouch
      generalize (if last.1 + last.2.length - next.1 < next.2.length
        then last.2 ++ next.2.drop (last.1 + last.2.length - next.1) else last.2) = merged
        at hslice hne hhas ⊢
      have hmerged : AscendingOk S ((last.1, merged) :: rest) := by
        refine ⟨?_, ?_, ?_⟩
        · grind [cases AscendingOk]
        · exact List.forall_mem_cons.mpr ⟨hslice, h.tail.tail.slice⟩
        · refine List.pairwise_cons.mpr ⟨?_, h.tail.tail.ascending⟩
          intro s hs
          exact (List.pairwise_cons.mp h.ascending).1 s (by simp [hs])
      obtain ⟨hmem, hsep, hcov⟩ := ih hmerged
      refine ⟨hmem, hsep, fun i => ?_⟩
      rw [hcov, covered_cons, covered_cons, covered_cons, hhas, or_assoc]
    · next hgap =>
      obtain ⟨hmem, hsep, hcov⟩ := ih h.tail
      refine ⟨?_, ?_, fun i => ?_⟩
      · refine List.forall_mem_cons.mpr
          ⟨⟨h.nonempty last (by simp), h.slice last (by simp), Nat.le_refl _⟩, ?_⟩
        grind
      · refine List.pairwise_cons.mpr ⟨?_, hsep⟩
        grind [Segment.stop]
      · rw [covered_cons, covered_cons, hcov]

theorem coalesceStreamRecvData_spec (recvBuf : OrdMap Bytes) (hne : ∀ e ∈ recvBuf.entries, e.2 ≠ [])
    (hslice : ∀ e ∈ recvBuf.entries, Segment.IsSlice S e) :
    RecvBufferOk S (coalesceStreamRecvData recvBuf) ∧
      ∀ i, Covered (coalesceStreamRecvData recvBuf).entries i ↔ Covered recvBuf.entries i := by
  have hasc : AscendingOk S recvBuf.entries := ⟨hne, hslice, recvBuf.sorted⟩
  unfold coalesceStreamRecvData
  split
  · next hentries => exact ⟨RecvBufferOk.empty S, by simp [hentries]⟩
  · next first rest hentries =>
    rw [hentries] at hasc
    obtain ⟨hmem, hsep, hcov⟩ := mergeSegments_spec hasc
    have hsorted : (mergeSegments first rest).Pairwise fun a b => a.1 < b.1 := by
      refine hsep.imp ?_
      intro a b hab
      unfold Segment.stop at hab
      omega
    have hall : (OrdMap.empty.insertAll (mergeSegments first rest)).entries =
        mergeSegments first rest := by
      rw [OrdMap.entries_insertAll (by simpa using hsorted)]
      rfl
    refine ⟨⟨?_, ?_, ?_⟩, ?_⟩
    · rw [hall]; exact fun s hs => (hmem s hs).1
    · rw [hall]; exact fun s hs => (hmem s hs).2.1
    · rw [hall]; exact hsep
    · rw [hall, hentries]; exact hcov

/-! ## Buffering -/

theorem bufferStreamRecvData_spec {offset : Nat} {data : Bytes}
    (h : RecvBufferOk S recvBuf) (hslice : Segment.IsSlice S (offset, data)) :
    RecvBufferOk S (bufferStreamRecvData recvBuf offset data) ∧
      ∀ i, Covered (bufferStreamRecvData recvBuf offset data).entries i ↔
        Covered recvBuf.entries i ∨ Segment.Has (offset, data) i := by
  unfold bufferStreamRecvData
  split
  · next hempty =>
    simp_all
  · next hdata =>
    have hne : data ≠ [] := by simpa using hdata
    have hstart : PendingOk S [(offset, data)] :=
      ⟨by simpa using hne, by simpa using hslice, by simp⟩
    have hranges : ∀ i,
        (∀ r ∈ recvBuf.entries.map (fun e => (e.1, e.1 + e.2.length)), ¬ (r.1 ≤ i ∧ i < r.2)) ↔
          ¬ Covered recvBuf.entries i := by
      intro i
      simp only [List.forall_mem_map, Covered, Segment.Has, not_exists, not_and]
    have hcut := cutAround_covered
      (recvBuf.entries.map fun e => (e.1, e.1 + e.2.length)) [(offset, data)]
    have hok := hstart.cutAround (recvBuf.entries.map fun e => (e.1, e.1 + e.2.length))
    simp only [hranges, covered_cons, covered_nil, or_false] at hcut
    dsimp only
    split
    · next hnone =>
      -- everything was cut away, so every position of the new data is covered already
      refine ⟨h, fun i => ⟨Or.inl, ?_⟩⟩
      rintro (hi | hi)
      · exact hi
      · have hi' := hcut i
        rw [hnone, covered_nil] at hi'
        by_contra hn
        exact hi'.mpr ⟨hi, hn⟩
    · next hsome =>
      generalize cutAround (recvBuf.entries.map fun e => (e.1, e.1 + e.2.length))
        [(offset, data)] = pending at hcut hok
      have hkeys : pending.Pairwise fun a b => a.1 ≠ b.1 := by
        refine hok.ordered.imp_of_mem ?_
        intro a b ha _ hab
        have hpos : 0 < a.2.length := List.length_pos_iff.mpr (hok.nonempty a ha)
        unfold Segment.stop at hab
        omega
      have hfresh : ∀ x ∈ pending, ∀ e ∈ recvBuf.entries, e.1 ≠ x.1 := by
        intro x hx e he heq
        have hxpos : 0 < x.2.length := List.length_pos_iff.mpr (hok.nonempty x hx)
        have hepos : 0 < e.2.length := List.length_pos_iff.mpr (h.nonempty e he)
        have hnot := ((hcut x.1).mp ⟨x, hx, Nat.le_refl _, by omega⟩).2
        exact hnot ⟨e, he, by omega, by omega⟩
      have hmem := OrdMap.mem_insertAll (m := recvBuf) hkeys hfresh
      obtain ⟨hbuf, hcov⟩ := coalesceStreamRecvData_spec (S := S)
        (recvBuf.insertAll pending)
        (fun e he => ((hmem e).mp he).elim (h.nonempty e) (hok.nonempty e))
        (fun e he => ((hmem e).mp he).elim (h.slice e) (hok.slice e))
      refine ⟨hbuf, fun i => ?_⟩
      have hmem' : ∀ s, s ∈ (recvBuf.insertAll pending).entries ↔ s ∈ recvBuf.entries ++ pending :=
        by simpa using hmem
      rw [hcov, covered_congr hmem', covered_append, hcut]
      tauto

end Starfish.Quic
