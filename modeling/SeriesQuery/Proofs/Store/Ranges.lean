import SeriesQuery.Proofs.Query.Fusion
import SeriesQuery.Proofs.Store.Logs

/-!
# What a scan reads

The two searches of a scan know nothing of each other, so the place at which the
samples of a range end can stand before the one at which they begin. Both lie
within the samples, and where they are the wrong way round there is nothing to
read. A scan of a series that has come about by operations therefore reads the
samples that were accepted and that the range contains, and nothing else.
-/

namespace SeriesQuery

theorem sortByTime_filter (p : Sample α → Bool) (samples : List (Sample α)) :
    sortByTime (samples.filter p) = (sortByTime samples).filter p := by
  refine (eq_sortByTime (List.Pairwise.filter p (inOrder_sortByTime samples)) fun t => ?_).symm
  calc samplesAt t ((sortByTime samples).filter p)
      = (samplesAt t (sortByTime samples)).filter p := List.filter_comm ..
    _ = (samplesAt t samples).filter p := by rw [samplesAt_sortByTime]
    _ = samplesAt t (samples.filter p) := List.filter_comm ..

namespace Series

variable {series : Series} {range : TimeRange} {log : Log}

/-- The places at which the samples of a range begin and end. -/
def bounds (series : Series) (range : TimeRange) : Nat × Nat :=
  let before := fun t : Instant =>
    Search.partitionPoint (fun sample => sample.timestamp < t) series.samples
  ((range.start.map before).getD 0, (range.stop.map before).getD series.samples.size)

theorem bounds_le (series : Series) (range : TimeRange) :
    (series.bounds range).1 ≤ series.samples.size ∧
      (series.bounds range).2 ≤ series.samples.size := by
  have hbefore (t : Instant) : Search.partitionPoint (fun sample => sample.timestamp < t)
      series.samples ≤ series.samples.size :=
    Search.partitionPoint_le (series.partitioned_lt t)
  obtain ⟨start, stop⟩ := range
  constructor
  · cases start with
    | none => exact Nat.zero_le _
    | some t => exact hbefore t
  · cases stop with
    | none => exact Nat.le_refl _
    | some t => exact hbefore t

theorem scan_eq_slice : series.scan range =
    if (series.bounds range).2 ≤ (series.bounds range).1 then []
    else (series.samples.extract (series.bounds range).1 (series.bounds range).2).toList := by
  have hscan : series.scan range =
      (series.samples.extract (series.bounds range).1 (series.bounds range).2).toList := rfl
  rw [hscan]
  split
  · next hle => rw [Array.toList_extract, List.extract_eq_take_drop, Nat.sub_eq_zero_of_le hle,
      List.take_zero]
  · rfl

theorem scan_intersect (a b : TimeRange) : series.scan (a.intersect b) =
    series.samples.toList.filter fun s => a.contains s.timestamp && b.contains s.timestamp := by
  simp only [scan_eq_filter, TimeRange.contains_intersect]

theorem Keeps.scan (h : series.Keeps log) : series.scan range =
    sortByTime (log.accepted.filter fun s => range.contains s.timestamp) := by
  rw [scan_eq_filter, h.sorted, sortByTime_filter]

end Series

namespace Store

theorem Refines.scan {store : Store} {logs : Logs} (h : store.Refines logs) (range : TimeRange)
    (name : String) :
    Option.Rel (fun series log => series.scan range =
        sortByTime (log.accepted.filter fun s => range.contains s.timestamp))
      (store.series? name) (logs name) := by
  have hkeeps := h.keeps name
  generalize store.series? name = found at hkeeps ⊢
  generalize logs name = log at hkeeps ⊢
  cases hkeeps with
  | none => exact .none
  | some hkept => exact .some hkept.scan

/-- Whatever operations there were, and whether or not a name refers to a series
by now: the bounds of a range lie within its samples, and the slice between them
is what the range contains of these, in their order. A scan of the intersection
of two ranges reads what both contain. A series that has a name holds what was
accepted under it, so its scan is a stable sort of the accepted samples in range. -/
theorem scans_read_ranges (operations : List Operation) (a b : TimeRange) :
    ∃ store logs, (Operation.runAll perform .empty operations).1 = store ∧
      (Operation.runAll Logs.perform .empty operations).1 = logs ∧
      (∀ ref, ∃ first last, (store.read ref).bounds a = (first, last) ∧
        first ≤ (store.read ref).samples.size ∧ last ≤ (store.read ref).samples.size ∧
        (store.read ref).scan a = (if last ≤ first then []
          else ((store.read ref).samples.extract first last).toList) ∧
        (store.read ref).scan a =
          (store.read ref).samples.toList.filter (fun s => a.contains s.timestamp) ∧
        (store.read ref).scan (a.intersect b) = (store.read ref).samples.toList.filter fun s =>
          a.contains s.timestamp && b.contains s.timestamp) ∧
      ∀ name, Option.Rel (fun series log => series.scan a =
          sortByTime (log.accepted.filter fun s => a.contains s.timestamp))
        (store.series? name) (logs name) := by
  obtain ⟨-, hrefines⟩ := Refines.empty.runAll operations
  refine ⟨_, _, rfl, rfl, fun ref => ?_, hrefines.scan a⟩
  obtain ⟨hfirst, hlast⟩ := (read _ ref).bounds_le a
  exact ⟨_, _, rfl, hfirst, hlast, Series.scan_eq_slice, Series.scan_eq_filter,
    Series.scan_intersect a b⟩

end Store

end SeriesQuery
