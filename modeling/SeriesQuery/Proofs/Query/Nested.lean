import SeriesQuery.Proofs.Merge.Nested
import SeriesQuery.Proofs.Query.Ranges
import SeriesQuery.Proofs.Query.Schema

/-!
# Joins of joins as one join

A join whose first input is a join of the same kind is the join of all their
inputs. Rows without any of the first inputs have the nulls of the inner join at
once, and fields that it made optional stay so.
-/

namespace SeriesQuery

-- ---------------------------------------------------------------------------
-- Rows side by side
-- ---------------------------------------------------------------------------

theorem sideBySide_of_none {fields : List (List Field)} {slots : Slots Row}
    (hwidth : slots.length = fields.length) (h : slots.any Option.isSome = false) :
    sideBySide fields slots = List.replicate fields.flatten.length .null := by
  induction fields generalizing slots with
  | nil => rfl
  | cons first rest ih =>
    cases slots with
    | nil => cases hwidth
    | cons slot others =>
      obtain ⟨hslot, hothers⟩ := Bool.or_eq_false_iff.mp h
      obtain rfl : slot = none := by simpa using hslot
      have hrest := ih (Nat.succ.inj hwidth) hothers
      rw [sideBySide] at hrest ⊢
      rw [List.zipWith_cons_cons, List.flatten_cons, hrest, List.flatten_cons, List.length_append,
        List.replicate_add]
      rfl

theorem sideBySide_append {fields others : List (List Field)} {first rest : Slots Row}
    (h : first.length = fields.length) :
    sideBySide (fields ++ others) (first ++ rest) =
      sideBySide fields first ++ sideBySide others rest := by
  rw [sideBySide, List.zipWith_append h.symm, List.flatten_append]
  rfl

theorem sideBySide_nested {inner : List Field} {firsts rests : List (List Field)}
    {slots : Slots Row} (hinner : inner.length = firsts.flatten.length)
    (hwidth : slots.length = (firsts ++ rests).length) :
    sideBySide (inner :: rests) (nestSlots (sideBySide firsts) firsts.length slots) =
      sideBySide (firsts ++ rests) slots := by
  obtain ⟨first, rest, hfirst, rfl⟩ :
      ∃ first rest, first.length = firsts.length ∧ slots = first ++ rest :=
    ⟨slots.take firsts.length, slots.drop firsts.length, by simp [hwidth],
      (List.take_append_drop _ _).symm⟩
  rw [nestSlots_append hfirst, sideBySide_append hfirst]
  refine congrArg (· ++ sideBySide rests rest) ?_
  split
  · rfl
  · next hnone =>
    rw [sideBySide_of_none hfirst (by simpa using hnone), ← hinner]
    rfl

-- ---------------------------------------------------------------------------
-- Fields
-- ---------------------------------------------------------------------------

namespace Rowset

variable {kind : JoinKind} {inner : Rowset} {firsts rests : List Rowset}

theorem joinedFields_append (index : Nat) :
    joinedFields kind index (firsts ++ rests) =
      joinedFields kind index firsts ++ joinedFields kind (index + firsts.length) rests := by
  induction firsts generalizing index with
  | nil => rfl
  | cons first others ih =>
    rw [List.cons_append, joinedFields, joinedFields, ih, List.append_assoc, List.length_cons,
      Nat.add_assoc, Nat.add_comm 1]

theorem joinedFields_later (m n : Nat) :
    joinedFields kind (m + 1) rests = joinedFields kind (n + 1) rests := by
  induction rests generalizing m n with
  | nil => rfl
  | cons input others ih =>
    have hoptional : kind.isOptional (m + 1) = kind.isOptional (n + 1) := by
      cases kind <;> simp [JoinKind.isOptional]
    rw [joinedFields, joinedFields, hoptional, ih (m + 1) (n + 1)]

theorem joinedFields_full (index : Nat) :
    (joinedFields .full index rests).map (fun field => field.retype field.dataType false) =
      joinedFields .full index rests := by
  induction rests generalizing index with
  | nil => rfl
  | cons input others ih =>
    rw [joinedFields, List.map_append, ih]
    refine congrArg (· ++ _) ?_
    simp [JoinKind.isOptional, Field.retype]

theorem joinedFields_length (index : Nat) :
    (joinedFields kind index rests).length = (rests.map (·.fields)).flatten.length := by
  induction rests generalizing index with
  | nil => rfl
  | cons input others ih =>
    rw [joinedFields, List.length_append, ih, List.map_cons, List.flatten_cons, List.length_append]
    split <;> simp

theorem joinedFields_nested (hne : firsts ≠ []) (h : inner.fields = joinedFields kind 0 firsts) :
    joinedFields kind 0 (inner :: rests) = joinedFields kind 0 (firsts ++ rests) := by
  obtain ⟨n, hn⟩ := Nat.exists_eq_succ_of_ne_zero (mt List.length_eq_zero_iff.mp hne)
  rw [joinedFields_append, joinedFields, h, hn, Nat.zero_add, joinedFields_later 0 n]
  refine congrArg₂ (· ++ ·) ?_ (by rw [Nat.zero_add])
  cases kind with
  | full => exact joinedFields_full 0
  | _ => rfl

-- ---------------------------------------------------------------------------
-- Joined rowsets
-- ---------------------------------------------------------------------------

theorem join_of_append {out : Rowset} (h : join kind (firsts ++ rests) = .ok out) :
    ∃ inner, join kind firsts = .ok inner := by
  have hnamed := Field.validate_eq_ok.mp (join_eq_ok.mp h).1
  rw [joinedFields_append] at hnamed
  refine ⟨_, join_eq_ok.mpr ⟨Field.validate_eq_ok.mpr ⟨?_, ?_⟩, rfl⟩⟩
  · intro field hfield
    exact hnamed.filled field (List.mem_append_left _ hfield)
  · exact hnamed.distinct.sublist ((List.sublist_append_left _ _).map _)

variable {heads tails : List (List (Sample Row))} {items : List (Sample Row)}

theorem rows_nested {rows : List (Sample (Slots Row))}
    (hinner : inner.fields = joinedFields kind 0 firsts)
    (hwidth : ∀ row ∈ rows, row.value.length = (firsts ++ rests).length) :
    (rows.map fun row =>
        (⟨row.timestamp, nestSlots (sideBySide (firsts.map (·.fields))) firsts.length row.value⟩ :
          Sample (Slots Row))).map (fun row =>
        (⟨row.timestamp, sideBySide ((inner :: rests).map (·.fields)) row.value⟩ : Sample Row)) =
      rows.map fun row =>
        ⟨row.timestamp, sideBySide ((firsts ++ rests).map (·.fields)) row.value⟩ := by
  have hlength : inner.fields.length = (firsts.map (·.fields)).flatten.length :=
    hinner ▸ joinedFields_length 0
  rw [List.map_map]
  refine List.map_congr_left fun row hrow => congrArg (Sample.mk row.timestamp) ?_
  have hslots : row.value.length = (firsts.map (·.fields) ++ rests.map (·.fields)).length := by
    simpa using hwidth row hrow
  have hnested := sideBySide_nested hlength hslots
  rwa [List.length_map, ← List.map_append] at hnested

theorem join_nested (hfirsts : List.Forall₂ Runs firsts heads)
    (hrests : List.Forall₂ Runs rests tails) (hne : firsts ≠ [])
    (hjoin : join kind firsts = .ok inner) (hinner : inner.Runs items) :
    join kind (inner :: rests) = join kind (firsts ++ rests) := by
  obtain ⟨joined, hjoined, hheads⟩ := join_runs hfirsts hjoin
  obtain rfl : items = joined.map fun row =>
      ⟨row.timestamp, sideBySide (firsts.map (·.fields)) row.value⟩ :=
    List.map_injective_iff.mpr (fun _ _ => Except.ok.inj) (hinner.answers.symm.trans hheads)
  have hfields : inner.fields = joinedFields kind 0 firsts :=
    congrArg fields (join_eq_ok.mp hjoin).2
  have hall : joinedFields kind 0 (inner :: rests) = joinedFields kind 0 (firsts ++ rests) :=
    joinedFields_nested hne hfields
  cases hvalid : Field.validate (joinedFields kind 0 (firsts ++ rests)) with
  | error e =>
    simp only [join, hall, hvalid]
    rfl
  | ok =>
    have hflat := join_eq_ok.mpr ⟨hvalid, rfl⟩
    have hnested := join_eq_ok.mpr ⟨hall ▸ hvalid, rfl⟩
    obtain ⟨rows, hrows, hanswers⟩ := join_runs (List.rel_append hfirsts hrests) hflat
    obtain ⟨others, hothers, hnestedAnswers⟩ := join_runs (.cons hinner hrests) hnested
    obtain rfl := hothers.unique (hjoined.nested (sideBySide (firsts.map (·.fields)))
      (ne_nil_of_forall₂ hfirsts hne) hrows)
    rw [hflat, hnested]
    refine congrArg Except.ok (ext_of_guarded hall ⟨_, rfl⟩ ⟨_, rfl⟩ ?_)
    rw [hnestedAnswers, hanswers, ← hfirsts.length_eq]
    refine congrArg (List.map Except.ok) (rows_nested hfields fun row hrow => ?_)
    simp [← (hrows.slots hrow).length_eq, hfirsts.length_eq, hrests.length_eq]

end Rowset

-- ---------------------------------------------------------------------------
-- Queries
-- ---------------------------------------------------------------------------

namespace Source

variable {kind : JoinKind} {inputs firsts rests : List Source} {range : TimeRange}
  {rowset : Rowset}

theorem JoinTree.all_runs {executed : List Rowset} (h : ∀ input ∈ inputs, input.JoinTree)
    (he : List.Forall₂ (fun source input => source.execute range = .ok input) inputs executed) :
    ∃ items, List.Forall₂ Rowset.Runs executed items := by
  refine exists_forall₂ fun input hinput => ?_
  obtain ⟨source, hsource, hexecute⟩ := exists_of_forall₂ he.flip hinput
  exact (h source hsource).runs hexecute

theorem JoinTree.join_nested {heads tails : List Rowset} {inner : Rowset}
    (hfirsts : ∀ input ∈ firsts, input.JoinTree) (hrests : ∀ input ∈ rests, input.JoinTree)
    (hne : firsts ≠ [])
    (hheads : List.Forall₂ (fun source input => source.execute range = .ok input) firsts heads)
    (htails : List.Forall₂ (fun source input => source.execute range = .ok input) rests tails)
    (hinner : Rowset.join kind heads = .ok inner) :
    Rowset.join kind (inner :: tails) = Rowset.join kind (heads ++ tails) := by
  have hexecuted := execute_join_eq_ok.mpr ⟨hne, heads, hheads, hinner⟩
  obtain ⟨headItems, hheadRuns⟩ := JoinTree.all_runs hfirsts hheads
  obtain ⟨tailItems, htailRuns⟩ := JoinTree.all_runs hrests htails
  obtain ⟨items, hinnerRuns⟩ := (JoinTree.join hfirsts).runs hexecuted
  exact Rowset.join_nested hheadRuns htailRuns (ne_nil_of_forall₂ hheads hne) hinner hinnerRuns

theorem execute_nested (h : ∀ input ∈ firsts ++ rests, input.JoinTree) (hne : firsts ≠ []) :
    (Source.join kind (.join kind firsts :: rests)).execute range = .ok rowset ↔
      (Source.join kind (firsts ++ rests)).execute range = .ok rowset := by
  obtain ⟨hfirsts, hrests⟩ := List.forall_mem_append.mp h
  constructor
  · intro hnested
    obtain ⟨-, executed, hexecuted, hout⟩ := execute_join_eq_ok.mp hnested
    obtain ⟨inner, tails, hinner, htails, rfl⟩ := List.forall₂_cons_left_iff.mp hexecuted
    obtain ⟨-, heads, hheads, hinnerJoin⟩ := execute_join_eq_ok.mp hinner
    exact execute_join_eq_ok.mpr ⟨List.append_ne_nil_of_left_ne_nil hne _, heads ++ tails,
      List.rel_append hheads htails,
      (JoinTree.join_nested hfirsts hrests hne hheads htails hinnerJoin).symm.trans hout⟩
  · intro hflat
    obtain ⟨-, executed, hexecuted, hout⟩ := execute_join_eq_ok.mp hflat
    obtain ⟨heads, tails, rfl, hheads, htails⟩ : ∃ heads tails, executed = heads ++ tails ∧
        List.Forall₂ (fun source input => source.execute range = .ok input) firsts heads ∧
        List.Forall₂ (fun source input => source.execute range = .ok input) rests tails :=
      ⟨executed.take firsts.length, executed.drop firsts.length,
        (List.take_append_drop _ _).symm,
        by simpa using List.forall₂_take firsts.length hexecuted,
        by simpa using List.forall₂_drop firsts.length hexecuted⟩
    obtain ⟨inner, hinner⟩ := Rowset.join_of_append hout
    refine execute_join_eq_ok.mpr ⟨List.cons_ne_nil _ _, inner :: tails, .cons ?_ htails,
      (JoinTree.join_nested hfirsts hrests hne hheads htails hinner).trans hout⟩
    exact execute_join_eq_ok.mpr ⟨hne, heads, hheads, hinner⟩

/-- A join of the join of some first inputs with the others succeeds just if the
join of all inputs does, and then it is the same: it has the same fields, and the
same rows come in the same order to every puller. -/
theorem nested_join_flattens (h : ∀ input ∈ inputs, input.JoinTree) (hk : 1 ≤ k) :
    (Source.join kind (.join kind (inputs.take k) :: inputs.drop k)).execute range = .ok rowset ↔
      (Source.join kind inputs).execute range = .ok rowset := by
  cases inputs with
  | nil =>
    refine iff_of_false (fun hnested => ?_) (by simp [execute_join_eq_ok])
    obtain ⟨-, executed, hexecuted, -⟩ := execute_join_eq_ok.mp hnested
    obtain ⟨_, _, hinner, -, -⟩ := List.forall₂_cons_left_iff.mp hexecuted
    exact (execute_join_eq_ok.mp hinner).1 List.take_nil
  | cons input others =>
    have hne : (input :: others).take k ≠ [] := by
      simp [Nat.ne_of_gt hk]
    have hsplit := List.take_append_drop k (input :: others)
    rw [execute_nested (hsplit.symm ▸ h) hne, hsplit]

def tallies : List Source :=
  [.rows [.plain "a" .boolean true] [⟨.epoch, [.boolean true]⟩, ⟨.epoch, [.boolean false]⟩],
    .rows [.plain "b" .boolean false] [⟨.epoch, [.null]⟩],
    .rows [.plain "c" .boolean true]
      [⟨.epoch, [.boolean true]⟩, ⟨.epoch, [.boolean true]⟩, ⟨.epoch, [.boolean false]⟩]]

theorem tallies_join_flattens :
    (∀ input ∈ tallies, input.JoinTree) ∧ 1 ≤ 2 ∧
      ∃ rowset, (Source.join .full tallies).execute .all = .ok rowset ∧
        (Source.join .full (.join .full (tallies.take 2) :: tallies.drop 2)).execute .all =
          .ok rowset := by
  have htrees : ∀ input ∈ tallies, input.JoinTree := by
    simp only [tallies, List.forall_mem_cons]
    refine ⟨.rows ?_ ?_, .rows ?_ ?_, .rows ?_ ?_, by simp⟩ <;>
      simp [InOrder, Row.Conforms, Field.admits_iff] <;> decide
  obtain ⟨rowset, hflat⟩ : ∃ rowset, (Source.join .full tallies).execute .all = .ok rowset :=
    ⟨_, rfl⟩
  exact ⟨htrees, by decide, rowset, hflat, (nested_join_flattens htrees (by decide)).mpr hflat⟩

end Source

end SeriesQuery
