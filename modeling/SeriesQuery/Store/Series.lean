import SeriesQuery.Field.Basic
import SeriesQuery.Store.Search
import SeriesQuery.Time.Range

/-!
# Series

A named series: its field and its samples in the order of their timestamps. Samples with one
timestamp stand in the order of their insertion, and every sample fits the field.
-/

namespace SeriesQuery

def InOrder {α : Type} (samples : List (Sample α)) : Prop :=
  samples.Pairwise fun a b => a.timestamp ≤ b.timestamp

structure Series where
  field : Field
  samples : Array (Sample Value)
  inOrder : InOrder samples.toList
  conforming : ∀ sample ∈ samples.toList, field.check sample.value = .ok ()

namespace Series

def empty (field : Field) : Series where
  field := field
  samples := #[]
  inOrder := List.Pairwise.nil
  conforming := fun _ member => by simp at member

theorem partitioned_le (series : Series) (t : Instant) :
    Search.Partitioned (fun sample : Sample Value => sample.timestamp ≤ t) series.samples :=
  series.inOrder.imp fun {a b} order below => by
    simp only [decide_eq_true_eq, Instant.le_def] at *
    omega

theorem partitioned_lt (series : Series) (t : Instant) :
    Search.Partitioned (fun sample : Sample Value => sample.timestamp < t) series.samples :=
  series.inOrder.imp fun {a b} order below => by
    simp only [decide_eq_true_eq, Instant.le_def, Instant.lt_def] at *
    omega

/-- Where a sample belongs: after all samples with its timestamp or an earlier one. -/
def placeOf (series : Series) (t : Instant) : Nat :=
  Search.partitionPoint (fun sample => sample.timestamp ≤ t) series.samples

def withSample (series : Series) (sample : Sample Value) : Array (Sample Value) :=
  let place := series.placeOf sample.timestamp
  (series.samples.extract 0 place).push sample ++ series.samples.extract place

theorem toList_withSample (series : Series) (sample : Sample Value) :
    (series.withSample sample).toList =
      series.samples.toList.take (series.placeOf sample.timestamp) ++
        sample :: series.samples.toList.drop (series.placeOf sample.timestamp) := by
  rw [withSample, Array.toList_append, Array.toList_push, Array.toList_extract,
    Array.toList_extract, List.extract_eq_take_drop, List.extract_eq_take_drop, List.drop_zero,
    Nat.sub_zero, List.append_assoc, List.take_of_length_le (l := List.drop _ _) (by simp)]
  rfl

theorem inOrder_withSample (series : Series) (sample : Sample Value) :
    InOrder (series.withSample sample).toList := by
  have partitioned := series.partitioned_le sample.timestamp
  have split := series.inOrder
  rw [← List.take_append_drop (series.placeOf sample.timestamp) series.samples.toList] at split
  rw [toList_withSample]
  obtain ⟨first, second, between⟩ := List.pairwise_append.1 split
  refine List.pairwise_append.2 ⟨first, List.pairwise_cons.2 ⟨fun a member => ?_, second⟩, ?_⟩
  · have := Search.not_test_of_mem_drop partitioned member
    simp only [decide_eq_true_eq, Instant.le_def] at *
    omega
  · intro a member b later
    rcases List.mem_cons.1 later with rfl | later
    · simpa using Search.test_of_mem_take partitioned member
    · exact between a member b later

def insert (series : Series) (sample : Sample Value) : Except EvalError Series :=
  match fits : series.field.check sample.value with
  | .error e => .error e
  | .ok () => .ok {
      field := series.field
      samples := series.withSample sample
      inOrder := series.inOrder_withSample sample
      conforming := by
        intro other member
        rw [toList_withSample] at member
        rcases List.mem_append.1 member with member | member
        · exact series.conforming other (List.mem_of_mem_take member)
        · rcases List.mem_cons.1 member with rfl | member
          · exact fits
          · exact series.conforming other (List.mem_of_mem_drop member) }

/-- The samples within a time range, found by binary search. -/
def scan (series : Series) (range : TimeRange) : List (Sample Value) :=
  let before := fun t : Instant =>
    Search.partitionPoint (fun sample => sample.timestamp < t) series.samples
  let first := (range.start.map before).getD 0
  let last := (range.stop.map before).getD series.samples.size
  (series.samples.extract first last).toList

end Series

end SeriesQuery
