/-!
# Binary search

The number of leading elements of an array for which a test holds, found by halving. It is right
for arrays in which no such element follows one for which the test fails.
-/

namespace SeriesQuery.Search

variable {α : Type}

def partitionFrom (test : α → Bool) (items : Array α) (low high : Nat)
    (bound : high ≤ items.size) : Nat :=
  if less : low < high then
    let middle := (low + high) / 2
    have inside : middle < items.size := by omega
    if test items[middle] then partitionFrom test items (middle + 1) high bound
    else partitionFrom test items low middle (by omega)
  else low
termination_by high - low

/-- The number of leading elements for which the test holds. -/
def partitionPoint (test : α → Bool) (items : Array α) : Nat :=
  partitionFrom test items 0 items.size (Nat.le_refl _)

/-- Elements for which the test holds stand before all others. -/
def Partitioned (test : α → Bool) (items : Array α) : Prop :=
  items.toList.Pairwise fun a b => test b → test a

theorem Partitioned.before {test : α → Bool} {items : Array α} (h : Partitioned test items)
    {i j : Nat} (order : i ≤ j) (bound : j < items.size) (holds : test items[j]) :
    test items[i] := by
  rcases Nat.lt_or_eq_of_le order with less | rfl
  · exact List.pairwise_iff_getElem.1 h i j (by simp; omega) (by simpa using bound) less holds
  · exact holds

theorem partitionFrom_spec {test : α → Bool} {items : Array α} (h : Partitioned test items)
    (low high : Nat) (bound : high ≤ items.size) (order : low ≤ high)
    (below : ∀ i (_ : i < items.size), i < low → test items[i])
    (above : ∀ i (_ : i < items.size), high ≤ i → ¬ test items[i]) :
    partitionFrom test items low high bound ≤ items.size ∧
      ∀ i (_ : i < items.size), test items[i] ↔ i < partitionFrom test items low high bound := by
  fun_induction partitionFrom test items low high bound with
  | case1 low high bound less middle inside holds ih =>
    exact ih (by omega) (fun i size index => h.before (by omega) inside holds) above
  | case2 low high bound less middle inside fails ih =>
    exact ih (by omega) below (fun i size index holds => fails (h.before index size holds))
  | case3 low high bound done =>
    have : low = high := by omega
    subst this
    refine ⟨bound, fun i size => ⟨fun holds => ?_, below i size⟩⟩
    exact Nat.lt_of_not_le fun le => above i size le holds

theorem partitionPoint_le {test : α → Bool} {items : Array α} (h : Partitioned test items) :
    partitionPoint test items ≤ items.size :=
  (partitionFrom_spec h 0 items.size (Nat.le_refl _) (Nat.zero_le _)
    (fun _ _ below => absurd below (Nat.not_lt_zero _))
    (fun _ size above => absurd size (Nat.not_lt_of_le above))).1

theorem test_iff_lt_partitionPoint {test : α → Bool} {items : Array α}
    (h : Partitioned test items) {i : Nat} (bound : i < items.size) :
    test items[i] ↔ i < partitionPoint test items :=
  (partitionFrom_spec h 0 items.size (Nat.le_refl _) (Nat.zero_le _)
    (fun _ _ below => absurd below (Nat.not_lt_zero _))
    (fun _ size above => absurd size (Nat.not_lt_of_le above))).2 i bound

theorem test_of_mem_take {test : α → Bool} {items : Array α} (h : Partitioned test items)
    {a : α} (member : a ∈ items.toList.take (partitionPoint test items)) : test a := by
  obtain ⟨i, bound, rfl⟩ := List.mem_take_iff_getElem.1 member
  have inside : i < items.size := by simp at bound; omega
  have before : i < partitionPoint test items := by omega
  simpa using (test_iff_lt_partitionPoint h inside).2 before

theorem not_test_of_mem_drop {test : α → Bool} {items : Array α} (h : Partitioned test items)
    {a : α} (member : a ∈ items.toList.drop (partitionPoint test items)) : ¬ test a := by
  obtain ⟨i, bound, rfl⟩ := List.mem_drop_iff_getElem.1 member
  have inside : partitionPoint test items + i < items.size := by simp at bound; omega
  intro holds
  have := (test_iff_lt_partitionPoint h inside).1 (by simpa [Nat.add_comm] using holds)
  omega

end SeriesQuery.Search
