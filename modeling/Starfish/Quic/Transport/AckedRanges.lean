import Starfish.Quic.Transport.StreamManager

/-!
# Acknowledged ranges of a stream

What a stream remembers of the acknowledgements of its data: ranges in ascending order with gaps
between them, which cover exactly the acknowledged bytes.
-/

namespace Starfish.Quic

def Covered (ranges : List (Nat × Nat)) (x : Nat) : Prop := ∃ r ∈ ranges, r.1 ≤ x ∧ x < r.2

/-- Ranges that are not empty, in ascending order, with a gap between any two of them. -/
structure NormalRanges (ranges : List (Nat × Nat)) : Prop where
  nonempty : ∀ r ∈ ranges, r.1 < r.2
  gaps : ranges.Pairwise fun a b => a.2 < b.1

theorem covered_cons {r : Nat × Nat} {ranges : List (Nat × Nat)} {x : Nat} :
    Covered (r :: ranges) x ↔ (r.1 ≤ x ∧ x < r.2) ∨ Covered ranges x := by
  simp [Covered]

theorem not_covered_nil (x : Nat) : ¬Covered [] x := by
  simp [Covered]

namespace StreamState

/-! ## Merging -/

/-- Merging ranges in ascending order of their starts keeps what they cover and leaves gaps
between them. -/
theorem mergeRanges_spec {current : Nat × Nat} {rest : List (Nat × Nat)}
    (hcurrent : current.1 < current.2) (hrest : ∀ r ∈ rest, r.1 < r.2)
    (hsorted : (current :: rest).Pairwise fun a b => a.1 ≤ b.1) :
    NormalRanges (mergeRanges current rest) ∧
      (∀ x, Covered (mergeRanges current rest) x ↔ Covered (current :: rest) x) ∧
      ∀ r ∈ mergeRanges current rest, current.1 ≤ r.1 := by
  induction rest generalizing current with
  | nil => simp [mergeRanges, hcurrent, NormalRanges.mk]
  | cons range rest ih =>
    obtain ⟨hrange, hrest⟩ := List.forall_mem_cons.mp hrest
    obtain ⟨hstarts, htail⟩ := List.pairwise_cons.mp hsorted
    obtain ⟨hstart, hstarts⟩ := List.forall_mem_cons.mp hstarts
    rw [mergeRanges]
    split
    · next htouch =>
      -- the next range begins within the current one, or right behind it
      have hsorted' : ((current.1, max current.2 range.2) :: rest).Pairwise
          fun a b => a.1 ≤ b.1 :=
        List.pairwise_cons.mpr ⟨hstarts, (List.pairwise_cons.mp htail).2⟩
      have hlonger : current.1 < max current.2 range.2 := by omega
      obtain ⟨hnormal, hcover, hstart'⟩ := ih hlonger hrest hsorted'
      refine ⟨hnormal, fun x => ?_, hstart'⟩
      rw [hcover, covered_cons, covered_cons, covered_cons, ← or_assoc]
      refine or_congr_left ?_
      omega
    · next hgap =>
      obtain ⟨hnormal, hcover, hstart'⟩ := ih hrange hrest htail
      refine ⟨⟨?_, ?_⟩, fun x => ?_, ?_⟩
      · exact List.forall_mem_cons.mpr ⟨hcurrent, hnormal.nonempty⟩
      · refine List.pairwise_cons.mpr ⟨fun r hr => ?_, hnormal.gaps⟩
        have hle := hstart' r hr
        omega
      · rw [covered_cons, hcover, ← covered_cons]
      · grind

theorem mergeSortedRanges_spec {ranges : List (Nat × Nat)} (hne : ∀ r ∈ ranges, r.1 < r.2)
    (hsorted : ranges.Pairwise fun a b => a.1 ≤ b.1) :
    NormalRanges (mergeSortedRanges ranges) ∧
      ∀ x, Covered (mergeSortedRanges ranges) x ↔ Covered ranges x := by
  cases ranges with
  | nil => exact ⟨⟨nofun, .nil⟩, fun _ => Iff.rfl⟩
  | cons range rest =>
    obtain ⟨hrange, hrest⟩ := List.forall_mem_cons.mp hne
    obtain ⟨hnormal, hcover, -⟩ := mergeRanges_spec hrange hrest hsorted
    exact ⟨hnormal, hcover⟩

theorem pairwise_sortByStart (ranges : List (Nat × Nat)) :
    (ranges.insertionSort fun a b => a.1 ≤ b.1).Pairwise fun a b => a.1 ≤ b.1 := by
  simp [List.pairwise_insertionSort]

variable {st : StreamState}

theorem acknowledgeSentData_ranges (h : NormalRanges st.ackedSendRanges) (offset len : Nat)
    (fin : Bool) :
    NormalRanges (st.acknowledgeSentData offset len fin).ackedSendRanges ∧
      ∀ x, Covered (st.acknowledgeSentData offset len fin).ackedSendRanges x ↔
        Covered st.ackedSendRanges x ∨ (offset ≤ x ∧ x < offset + len) := by
  have hfin : (st.acknowledgeSentData offset len fin).ackedSendRanges =
      (st.acknowledgeSentData offset len false).ackedSendRanges := by
    cases fin <;> rfl
  rw [hfin]
  unfold acknowledgeSentData
  by_cases hlen : offset < offset + len
  · rw [if_pos hlen]
    have hmem : ∀ r, r ∈ (st.ackedSendRanges ++ [(offset, offset + len)]).insertionSort
        (fun a b => a.1 ≤ b.1) ↔ r ∈ st.ackedSendRanges ∨ r = (offset, offset + len) := by
      simp
    have hne : ∀ r ∈ (st.ackedSendRanges ++ [(offset, offset + len)]).insertionSort
        (fun a b => a.1 ≤ b.1), r.1 < r.2 := by
      grind [cases NormalRanges]
    obtain ⟨hnormal, hcover⟩ := mergeSortedRanges_spec hne (pairwise_sortByStart _)
    refine ⟨hnormal, fun x => (hcover x).trans ?_⟩
    simp [Covered]
  · grind

theorem acknowledgeSentData_finAcked (st : StreamState) (offset len : Nat) (fin : Bool) :
    (st.acknowledgeSentData offset len fin).finAcked = (fin || st.finAcked) ∧
      (st.acknowledgeSentData offset len fin).finSent = st.finSent ∧
      (st.acknowledgeSentData offset len fin).sendOffset = st.sendOffset := by
  grind [acknowledgeSentData]

/-! ## Coverage -/

/-- The scan over ranges in ascending order finds out whether they cover everything up to the send
offset. -/
theorem rangesCover_iff {sendOffset coveredEnd : Nat} {ranges : List (Nat × Nat)}
    (hlt : coveredEnd < sendOffset) (h : NormalRanges ranges) :
    rangesCover sendOffset coveredEnd ranges = true ↔
      ∀ x, coveredEnd ≤ x → x < sendOffset → Covered ranges x := by
  induction ranges generalizing coveredEnd with
  | nil =>
    refine iff_of_false (by simp [rangesCover]) fun hall => ?_
    exact not_covered_nil _ (hall coveredEnd (Nat.le_refl _) hlt)
  | cons r rest ih =>
    obtain ⟨hr, hrest⟩ := List.forall_mem_cons.mp h.nonempty
    obtain ⟨hgap, hgaps⟩ := List.pairwise_cons.mp h.gaps
    rw [rangesCover]
    split
    · next hbehind =>
      -- the first byte is before all ranges
      refine iff_of_false nofun fun hall => ?_
      obtain ⟨r', hr', hle, -⟩ := hall coveredEnd (Nat.le_refl _) hlt
      grind
    · split
      · next hwithin hdone =>
        refine iff_of_true rfl fun x hx hlast => covered_cons.mpr (.inl ?_)
        omega
      · next hwithin hmore =>
        rw [ih (by omega) ⟨hrest, hgaps⟩]
        constructor
        · intro hall x hx hlast
          rw [covered_cons]
          by_cases hxr : x < r.2
          · exact .inl ⟨by omega, hxr⟩
          · exact .inr (hall x (by omega) hlast)
        · intro hall x hx hlast
          rcases covered_cons.mp (hall x (by omega) hlast) with hin | hin
          · omega
          · exact hin

theorem allSentDataAcked_iff (h : NormalRanges st.ackedSendRanges) :
    st.allSentDataAcked = true ↔ st.finSent = true ∧ st.finAcked = true ∧
      ∀ x < st.sendOffset, Covered st.ackedSendRanges x := by
  unfold allSentDataAcked
  cases hsent : st.finSent <;> cases hacked : st.finAcked <;> simp
  by_cases hzero : st.sendOffset = 0
  · simp [hzero]
  · have hcover := rangesCover_iff (Nat.pos_of_ne_zero hzero) h
    grind

/-! ## Sequences of acknowledgements -/

def unacked (st : StreamState) : StreamState := { st with ackedSendRanges := [], finAcked := false }

structure Acknowledgement where
  offset : Nat
  len : Nat
  fin : Bool

def acknowledgeAll (st : StreamState) (acks : List Acknowledgement) : StreamState :=
  acks.foldl (fun st ack => st.acknowledgeSentData ack.offset ack.len ack.fin) st

def AckedByte (acks : List Acknowledgement) (x : Nat) : Prop :=
  ∃ ack ∈ acks, ack.offset ≤ x ∧ x < ack.offset + ack.len

theorem acknowledgeAll_spec (h : NormalRanges st.ackedSendRanges) (acks : List Acknowledgement) :
    NormalRanges (st.acknowledgeAll acks).ackedSendRanges ∧
      (∀ x, Covered (st.acknowledgeAll acks).ackedSendRanges x ↔
        Covered st.ackedSendRanges x ∨ AckedByte acks x) ∧
      ((st.acknowledgeAll acks).finAcked = true ↔
        st.finAcked = true ∨ ∃ ack ∈ acks, ack.fin = true) ∧
      (st.acknowledgeAll acks).finSent = st.finSent ∧
      (st.acknowledgeAll acks).sendOffset = st.sendOffset := by
  induction acks generalizing st with
  | nil => simp [acknowledgeAll, AckedByte, h]
  | cons ack acks ih =>
    obtain ⟨hnormal, hcover⟩ := acknowledgeSentData_ranges h ack.offset ack.len ack.fin
    obtain ⟨hfin, hsent, hoffset⟩ :=
      acknowledgeSentData_finAcked st ack.offset ack.len ack.fin
    obtain ⟨hnormal', hcover', hfin', hsent', hoffset'⟩ := ih hnormal
    refine ⟨hnormal', fun x => (hcover' x).trans ?_, hfin'.trans ?_, hsent'.trans hsent,
      hoffset'.trans hoffset⟩
    · simp only [hcover x, AckedByte, List.mem_cons, exists_eq_or_imp, or_assoc]
    · grind

/-- After any acknowledgements, in any order, overlapping, repeated or empty, the remembered ranges
are in normal form and cover exactly the acknowledged bytes; and everything counts as acknowledged
exactly if FIN was sent and acknowledged and every byte before the send offset was. -/
theorem acked_ranges_exact (base : StreamState) (acks : List Acknowledgement) :
    let st := base.unacked.acknowledgeAll acks
    NormalRanges st.ackedSendRanges ∧
      (∀ x, Covered st.ackedSendRanges x ↔ AckedByte acks x) ∧
      (st.allSentDataAcked = true ↔ base.finSent = true ∧ (∃ ack ∈ acks, ack.fin = true) ∧
        ∀ x < base.sendOffset, AckedByte acks x) := by
  have hempty : NormalRanges base.unacked.ackedSendRanges := ⟨nofun, .nil⟩
  obtain ⟨hnormal, hcover, hfin, hsent, hoffset⟩ := acknowledgeAll_spec hempty acks
  have hcover' : ∀ x, Covered (base.unacked.acknowledgeAll acks).ackedSendRanges x ↔
      AckedByte acks x := by
    intro x
    rw [hcover x]
    exact or_iff_right (not_covered_nil x)
  refine ⟨hnormal, hcover', ?_⟩
  rw [allSentDataAcked_iff hnormal, hfin, hsent, hoffset]
  simp only [hcover']
  simp [unacked]

end StreamState

end Starfish.Quic
