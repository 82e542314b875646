import SeriesQuery.Proofs.Merge.Relation

/-!
# Joins of joins

The first inputs of a join can be joined before, with the same kind, and take
one slot together. Equal timestamps are paired as without the inner join: the
least, the first or the greatest number of samples is the same when it is chosen
in two steps.
-/

namespace SeriesQuery

/-- The slots where the first of them have one value together, or none if all
of them are empty. -/
def nestSlots (combine : Slots α → α) (n : Nat) (slots : Slots α) : Slots α :=
  (if (slots.take n).any Option.isSome then some (combine (slots.take n)) else none) ::
    slots.drop n

theorem nestSlots_append {first rest : Slots α} (h : first.length = n) :
    nestSlots combine n (first ++ rest) =
      (if first.any Option.isSome then some (combine first) else none) :: rest := by
  rw [nestSlots, List.take_left' h, List.drop_left' h]

-- ---------------------------------------------------------------------------
-- Numbers of rows
-- ---------------------------------------------------------------------------

namespace JoinKind

variable {kind : JoinKind} {firsts rests : List (List α)}

theorem choose_append {counts : List Nat} (h : kind.choose counts = some n) :
    kind.choose (n :: others) = kind.choose (counts ++ others) := by
  cases counts with
  | nil => cases kind <;> cases h
  | cons first rest =>
    cases kind with
    | left =>
      cases h
      rfl
    | _ =>
      cases h
      exact congrArg some List.foldl_append.symm

theorem exists_choose (kind : JoinKind) (hne : firsts ≠ []) :
    ∃ n, kind.choose (firsts.map List.length) = some n := by
  cases firsts with
  | nil => exact absurd rfl hne
  | cons => cases kind <;> exact ⟨_, rfl⟩

theorem rowCount_append (hne : firsts ≠ []) (hg : group.length = kind.rowCount firsts) :
    kind.rowCount (group :: rests) = kind.rowCount (firsts ++ rests) := by
  obtain ⟨n, hn⟩ := exists_choose kind hne
  have hcount : group.length = n := by rw [hg, rowCount, hn, Option.getD_some]
  rw [rowCount, rowCount, List.map_cons, hcount, choose_append hn, List.map_append]

theorem lt_rowCount_iff (hne : firsts ≠ []) (hk : k < kind.rowCount (firsts ++ rests)) :
    k < kind.rowCount firsts ↔ ∃ group ∈ firsts, k < group.length := by
  obtain ⟨n, hn⟩ := exists_choose kind hne
  obtain ⟨group, hgroup, hlength⟩ := List.mem_map.mp (choose_mem hn)
  have hcount : group.length = kind.rowCount firsts := by
    rw [hlength, rowCount, hn, Option.getD_some]
  constructor
  · intro hlt
    exact ⟨group, hgroup, hcount ▸ hlt⟩
  · rintro ⟨other, hother, hlt⟩
    cases kind with
    | inner =>
      rw [← hcount]
      exact Nat.lt_of_lt_of_le hk (rowCount_inner_le (List.mem_append_left _ hgroup))
    | left =>
      cases firsts with
      | nil => exact absurd rfl hne
      | cons => exact hk
    | full => exact Nat.lt_of_lt_of_le hlt (le_rowCount_full hother)

theorem length_pairUp {values : List (List α)} :
    (kind.pairUp t values).length = kind.rowCount values := by
  simp [pairUp]

theorem pairUp_nested (kind : JoinKind) (t : Instant) (rests : List (List α))
    (combine : Slots α → α) (hne : firsts ≠ []) :
    (kind.pairUp t (firsts ++ rests)).map (fun row =>
        (⟨row.timestamp, nestSlots combine firsts.length row.value⟩ : Sample (Slots α))) =
      kind.pairUp t (((kind.pairUp t firsts).map fun row => combine row.value) :: rests) := by
  have hcount : kind.rowCount (((kind.pairUp t firsts).map fun row => combine row.value) :: rests) =
      kind.rowCount (firsts ++ rests) :=
    rowCount_append hne (by rw [List.length_map, length_pairUp])
  rw [pairUp, pairUp, hcount, List.map_map]
  refine List.map_congr_left fun k hk => ?_
  have hpresent : (firsts.map fun group => group[k]?).any Option.isSome = true ↔
      k < kind.rowCount firsts := by
    rw [lt_rowCount_iff hne (List.mem_range.mp hk)]
    simp
  simp only [Function.comp_apply, List.map_append, List.map_cons]
  rw [nestSlots_append (List.length_map _), pairUp, List.map_map, List.getElem?_map]
  split
  · next hsome => simp [hpresent.mp hsome]
  · next hnone => simp [Nat.not_lt.mp (mt hpresent.mpr hnone)]

end JoinKind

-- ---------------------------------------------------------------------------
-- Rows
-- ---------------------------------------------------------------------------

namespace Joins

variable {kind : JoinKind} {firsts rests : List (List (Sample α))}
  {joined rows : List (Sample (Slots α))}

/-- The rows of a join with the join of its first inputs in their place. -/
theorem nested (combine : Slots α → α) (hne : firsts ≠ []) (hf : Joins kind firsts joined)
    (h : Joins kind (firsts ++ rests) rows) :
    Joins kind ((joined.map fun row => ⟨row.timestamp, combine row.value⟩) :: rests)
      (rows.map fun row => ⟨row.timestamp, nestSlots combine firsts.length row.value⟩) := by
  refine ⟨List.pairwise_map.mpr h.inOrder, fun t => ?_⟩
  have hvalues : valuesAt t (joined.map fun row => ⟨row.timestamp, combine row.value⟩) =
      (kind.pairUp t (firsts.map (valuesAt t))).map fun row => combine row.value := by
    rw [valuesAt, List.filter_map, List.map_map, ← hf.rowsAt t]
    rfl
  have hgroups : firsts.map (valuesAt t) ≠ [] := by simpa using hne
  have hpaired := kind.pairUp_nested t (rests.map (valuesAt t)) combine hgroups
  rw [List.length_map, ← List.map_append, ← h.rowsAt t] at hpaired
  rw [List.filter_map, List.map_cons, hvalues, ← hpaired]
  rfl

end Joins

end SeriesQuery
