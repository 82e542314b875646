import SeriesQuery.Proofs.Merge.Relation
import SeriesQuery.Proofs.Store.Scan

/-!
# Sorted samples

Samples in order are determined by those that they have at each timestamp, so a
stable sort is the one list in order that keeps the samples of each timestamp as
they stand. An insertion by binary search, behind all samples with the same or
an earlier timestamp, is therefore the same as appending the sample and sorting
again.
-/

namespace SeriesQuery

/-- The samples by timestamp; those with one timestamp stay in their order. -/
def sortByTime (samples : List (Sample α)) : List (Sample α) :=
  samples.mergeSort fun a b => a.timestamp ≤ b.timestamp

def samplesAt (t : Instant) (samples : List (Sample α)) : List (Sample α) :=
  samples.filter fun sample => sample.timestamp = t

theorem samplesAt_append {front back : List (Sample α)} :
    samplesAt t (front ++ back) = samplesAt t front ++ samplesAt t back :=
  List.filter_append ..

theorem samplesAt_cons {sample : Sample α} {rest : List (Sample α)} :
    samplesAt t (sample :: rest) =
      if sample.timestamp = t then sample :: samplesAt t rest else samplesAt t rest := by
  simp only [samplesAt, List.filter_cons, decide_eq_true_eq]

theorem mem_samplesAt {samples : List (Sample α)} :
    sample ∈ samplesAt t samples ↔ sample ∈ samples ∧ sample.timestamp = t := by
  simp [samplesAt]

theorem InOrder.ext {a b : List (Sample α)} (ha : InOrder a) (hb : InOrder b)
    (h : ∀ t, samplesAt t a = samplesAt t b) : a = b := by
  induction a generalizing b with
  | nil =>
    cases b with
    | nil => rfl
    | cons y b => simpa [samplesAt] using h y.timestamp
  | cons x a ih =>
    cases b with
    | nil => simpa [samplesAt] using h x.timestamp
    | cons y b =>
      -- each head is in the other list, so neither of them comes before the other
      obtain ⟨hx, -⟩ : x ∈ y :: b ∧ _ :=
        mem_samplesAt.mp (h x.timestamp ▸ mem_samplesAt.mpr ⟨List.mem_cons_self, rfl⟩)
      obtain ⟨hy, -⟩ : y ∈ x :: a ∧ _ :=
        mem_samplesAt.mp (h y.timestamp ▸ mem_samplesAt.mpr ⟨List.mem_cons_self, rfl⟩)
      have htime : x.timestamp = y.timestamp :=
        Std.le_antisymm (ha.head_le y hy) (hb.head_le x hx)
      have hhead : x = y := by
        have hat := h x.timestamp
        rw [samplesAt_cons, samplesAt_cons, if_pos rfl, if_pos htime.symm] at hat
        exact (List.cons.inj hat).1
      subst hhead
      refine congrArg (x :: ·)
        (ih (List.Pairwise.of_cons ha) (List.Pairwise.of_cons hb) fun t => ?_)
      have hat := h t
      rw [samplesAt_cons, samplesAt_cons] at hat
      split at hat
      · exact (List.cons.inj hat).2
      · exact hat

theorem inOrder_sortByTime (samples : List (Sample α)) : InOrder (sortByTime samples) := by
  have hsorted : (sortByTime samples).Pairwise fun a b => decide (a.timestamp ≤ b.timestamp) :=
    List.pairwise_mergeSort (fun a b c hab hbc => by grind) (fun a b => by grind) samples
  exact hsorted.imp fun h => of_decide_eq_true h

theorem samplesAt_sortByTime (samples : List (Sample α)) :
    samplesAt t (sortByTime samples) = samplesAt t samples := by
  -- samples with one timestamp are in order as they stand, and a stable sort keeps that
  have htied : (samplesAt t samples).Pairwise fun a b => decide (a.timestamp ≤ b.timestamp) :=
    List.pairwise_of_forall_mem_list fun a ha b hb => by
      simp [(mem_samplesAt.mp ha).2, (mem_samplesAt.mp hb).2]
  have hkept : (samplesAt t samples).Sublist (sortByTime samples) :=
    List.sublist_mergeSort (by grind) (by grind) htied List.filter_sublist
  have hsub : (samplesAt t samples).Sublist (samplesAt t (sortByTime samples)) := by
    simpa [samplesAt] using hkept.filter fun sample => sample.timestamp = t
  have hlength : (samplesAt t samples).length = (samplesAt t (sortByTime samples)).length :=
    ((List.mergeSort_perm samples _).filter _).length_eq.symm
  exact (hsub.eq_of_length hlength).symm

theorem eq_sortByTime {sorted samples : List (Sample α)} (ho : InOrder sorted)
    (h : ∀ t, samplesAt t sorted = samplesAt t samples) : sorted = sortByTime samples :=
  ho.ext (inOrder_sortByTime samples) fun t => (h t).trans (samplesAt_sortByTime samples).symm

namespace Series

variable {series : Series} {accepted : List (Sample Value)}

theorem samplesAt_withSample {sample : Sample Value} :
    samplesAt t (series.withSample sample).toList =
      samplesAt t (series.samples.toList ++ [sample]) := by
  have hsplit := List.take_append_drop (series.placeOf sample.timestamp) series.samples.toList
  -- behind the place of the sample all timestamps are later
  have hlater : sample.timestamp = t →
      samplesAt t (series.samples.toList.drop (series.placeOf sample.timestamp)) = [] := by
    rintro rfl
    refine List.filter_eq_nil_iff.mpr fun other hother hat => ?_
    have := Search.not_test_of_mem_drop (series.partitioned_le sample.timestamp) hother
    simp_all
  conv_rhs => rw [← hsplit]
  rw [toList_withSample]
  simp only [samplesAt_append, samplesAt_cons, List.append_assoc]
  split
  · next hat => rw [hlater hat]; rfl
  · simp [samplesAt]

theorem toList_withSample_eq_sort (h : series.samples.toList = sortByTime accepted) :
    (series.withSample sample).toList = sortByTime (accepted ++ [sample]) := by
  refine eq_sortByTime (series.inOrder_withSample sample) fun t => ?_
  rw [samplesAt_withSample, samplesAt_append, samplesAt_append, h, samplesAt_sortByTime]

end Series

end SeriesQuery
