import SeriesQuery.Proofs.Time.Order
import SeriesQuery.Store.Series

/-!
# Scans are filters

The two binary searches of a scan find exactly the samples that lie in the
range, and narrowing a range is the same as filtering twice.
-/

namespace SeriesQuery

namespace Search

variable {test : α → Bool} {items : Array α}

theorem take_partitionPoint (h : Partitioned test items) :
    items.toList.take (partitionPoint test items) = items.toList.filter test := by
  have hsplit := List.take_append_drop (partitionPoint test items) items.toList
  have hfirst : (items.toList.take (partitionPoint test items)).filter test =
      items.toList.take (partitionPoint test items) :=
    List.filter_eq_self.mpr fun a ha => test_of_mem_take h ha
  have hrest : (items.toList.drop (partitionPoint test items)).filter test = [] :=
    List.filter_eq_nil_iff.mpr fun a ha => not_test_of_mem_drop h ha
  calc items.toList.take (partitionPoint test items)
      = (items.toList.take (partitionPoint test items) ++
          items.toList.drop (partitionPoint test items)).filter test := by
        rw [List.filter_append, hfirst, hrest, List.append_nil]
    _ = items.toList.filter test := by rw [hsplit]

theorem drop_take_partitionPoint (h : Partitioned test items) :
    (items.toList.take n).drop (partitionPoint test items) =
      (items.toList.take n).filter fun a => !test a := by
  have hsplit := List.take_append_drop (partitionPoint test items) (items.toList.take n)
  have hfirst : ((items.toList.take n).take (partitionPoint test items)).filter (fun a => !test a) =
      [] := by
    refine List.filter_eq_nil_iff.mpr fun a ha => ?_
    rw [List.take_take, Nat.min_comm, ← List.take_take] at ha
    simp [test_of_mem_take h (List.mem_of_mem_take ha)]
  have hrest : ((items.toList.take n).drop (partitionPoint test items)).filter (fun a => !test a) =
      (items.toList.take n).drop (partitionPoint test items) := by
    refine List.filter_eq_self.mpr fun a ha => ?_
    rw [List.drop_take] at ha
    simpa using not_test_of_mem_drop h (List.mem_of_mem_take ha)
  calc (items.toList.take n).drop (partitionPoint test items)
      = ((items.toList.take n).take (partitionPoint test items) ++
          (items.toList.take n).drop (partitionPoint test items)).filter fun a => !test a := by
        rw [List.filter_append, hfirst, hrest, List.nil_append]
    _ = (items.toList.take n).filter fun a => !test a := by rw [hsplit]

end Search

namespace Series

theorem scan_eq_filter {series : Series} {range : TimeRange} :
    series.scan range =
      series.samples.toList.filter fun sample => range.contains sample.timestamp := by
  obtain ⟨start, stop⟩ := range
  have hlast : series.samples.toList.take
      ((stop.map fun t => Search.partitionPoint (fun s => s.timestamp < t) series.samples).getD
        series.samples.size) =
      series.samples.toList.filter fun s => stop.all (s.timestamp < ·) := by
    cases stop with
    | none =>
      exact (List.take_of_length_le (Nat.le_refl _)).trans
        (List.filter_eq_self.mpr fun _ _ => rfl).symm
    | some t => exact Search.take_partitionPoint (series.partitioned_lt t)
  have hfirst : ∀ n, (series.samples.toList.take n).drop
      ((start.map fun t =>
        Search.partitionPoint (fun s => s.timestamp < t) series.samples).getD 0) =
        (series.samples.toList.take n).filter fun s => start.all (· ≤ s.timestamp) := by
    intro n
    cases start with
    | none => exact (List.filter_eq_self.mpr fun _ _ => rfl).symm
    | some t =>
      refine (Search.drop_take_partitionPoint (series.partitioned_lt t)).trans ?_
      refine List.filter_congr fun s _ => ?_
      rw [← decide_not]
      exact decide_eq_decide.mpr Std.not_lt
  rw [scan, Array.toList_extract, List.extract_eq_take_drop, ← List.drop_take, hfirst, hlast,
    List.filter_filter]
  rfl

theorem mem_of_mem_scan {series : Series} {sample : Sample Value}
    (h : sample ∈ series.scan range) : sample ∈ series.samples.toList := by
  rw [scan_eq_filter] at h
  exact (List.mem_filter.mp h).1

end Series

end SeriesQuery
