import SeriesQuery.Proofs.Conformance
import SeriesQuery.Proofs.Merge.Rows
import SeriesQuery.Proofs.Query.Execution

/-!
# The rows of a joined query

A join of sources answers one row for each row of the join of their rows: the
rows of the sources side by side, and nulls in the place of a missing one.
-/

namespace SeriesQuery

/-- The rows in the slots one after the other; nulls stand for the fields of an
input without a row. -/
def sideBySide (fields : List (List Field)) (slots : Slots Row) : Row :=
  (List.zipWith (fun fields slot => slot.getD (List.replicate fields.length .null))
    fields slots).flatten

/-- A whole run of a rowset answers rows in order and without an error, and each
of them conforms to its fields. -/
structure Rowset.Runs (rowset : Rowset) (rows : List (Sample Row)) : Prop where
  answers : rowset.rows.answers = rows.map .ok
  inOrder : InOrder rows
  conforming : ∀ row ∈ rows, row.value.Conforms rowset.fields

-- ---------------------------------------------------------------------------
-- Joined streams
-- ---------------------------------------------------------------------------

theorem Joins.slots {kind : JoinKind} {inputs : List (List (Sample α))}
    {rows : List (Sample (Slots α))} {row : Sample (Slots α)} (h : Joins kind inputs rows)
    (hrow : row ∈ rows) :
    List.Forall₂ (fun items slot => ∀ value, slot = some value → ∃ s ∈ items, s.value = value)
      inputs row.value := by
  obtain ⟨k, -, heq⟩ := List.mem_map.mp (h.mem_pairUp hrow)
  rw [← heq, List.map_map, List.forall₂_map_right_iff, List.forall₂_same]
  intro items _ value hvalue
  have hmem := List.mem_of_getElem? hvalue
  simp only [valuesAt, List.mem_map, List.mem_filter] at hmem
  obtain ⟨s, ⟨hs, -⟩, hval⟩ := hmem
  exact ⟨s, hs, hval⟩

theorem joinStreams_untilError {kind : JoinKind} {streams : List (Stream (Sample α))}
    (combine : Slots α → Except EvalError β) {rows : List (Sample (Slots α))}
    (h : (Merge.ofStreams kind streams).stream.answers = rows.map .ok) :
    (joinStreams kind streams combine).answers = untilError (rows.map fun row =>
      QueryError.evaluating <| EvalError.within "join" <|
        (combine row.value).map fun value => ⟨row.timestamp, value⟩) := by
  rw [joinStreams, Stream.answers_guard, Stream.answers_filterMap, h, List.filterMap_map]
  simp only [Function.comp_def, List.filterMap_eq_map']
  refine congrArg untilError (List.map_congr_left fun row _ => ?_)
  cases combine row.value <;> rfl

theorem joinStreams_answers {kind : JoinKind} {streams : List (Stream (Sample α))}
    {combine : Slots α → Except EvalError β} {combined : Slots α → β}
    {rows : List (Sample (Slots α))}
    (h : (Merge.ofStreams kind streams).stream.answers = rows.map .ok)
    (hc : ∀ row ∈ rows, combine row.value = .ok (combined row.value)) :
    (joinStreams kind streams combine).answers =
      (rows.map fun row => ⟨row.timestamp, combined row.value⟩ : List (Sample β)).map .ok := by
  rw [joinStreams_untilError combine h, ← untilError_map_ok, List.map_map]
  refine congrArg untilError (List.map_congr_left fun row hrow => ?_)
  rw [hc row hrow]
  rfl

-- ---------------------------------------------------------------------------
-- Joined rowsets
-- ---------------------------------------------------------------------------

namespace Rowset

theorem flatten_eq_ok {fields : List (List Field)} {slots : Slots Row} (input : Nat)
    (h : List.Forall₂ (fun fields slot => ∀ row : Row, slot = some row → row.length = fields.length)
      fields slots) :
    flatten input (fields.map List.length) slots = .ok (sideBySide fields slots) := by
  induction h generalizing input with
  | nil => rfl
  | @cons first slot fields slots hslot _ ih =>
    simp only [List.map_cons, flatten, ih]
    cases slot with
    | none => rfl
    | some row =>
      simp only [if_pos (hslot row rfl)]
      rfl

end Rowset

/-- The join of what inputs hold: the merge of streams that answer samples in
order answers the rows of the relation, and a join of sources answers them side
by side. -/
theorem Joins.merge_and_source_rows :
    (∀ (α : Type) (kind : JoinKind) (streams : List (Stream (Sample α)))
      (inputs : List (List (Sample α))),
      List.Forall₂ (fun stream items => stream.answers = items.map .ok ∧ InOrder items)
        streams inputs →
      ∃ rows, (Merge.ofStreams kind streams).stream.answers = rows.map .ok ∧
        Joins kind inputs rows) ∧
    ∀ (kind : JoinKind) (range : TimeRange) (sources : List Source) (rowset : Rowset)
      (executed : List Rowset) (inputs : List (List (Sample Row))),
      (Source.join kind sources).execute range = .ok rowset →
      List.Forall₂ (fun source input => source.execute range = .ok input) sources executed →
      List.Forall₂ Rowset.Runs executed inputs →
      ∃ rows, Joins kind inputs rows ∧
        rowset.rows.answers =
          (rows.map fun row => ⟨row.timestamp, sideBySide (executed.map (·.fields)) row.value⟩ :
            List (Sample Row)).map .ok := by
  refine ⟨fun α kind streams inputs h => Merge.answers_ofStreams kind h, ?_⟩
  intro kind range sources rowset executed inputs hexecute hsources hruns
  obtain ⟨-, executed', hsources', hjoin⟩ := Source.execute_join_eq_ok.mp hexecute
  have hsame : executed' = executed := by
    refine List.right_unique_forall₂' (fun source a b ha hb => ?_) hsources' hsources
    exact Except.ok.inj (ha.symm.trans hb)
  obtain ⟨-, rfl⟩ := Rowset.join_eq_ok.mp hjoin
  subst hsame
  obtain ⟨rows, hanswers, hrows⟩ := Merge.answers_ofStreams kind
    (List.forall₂_map_left_iff.mpr (hruns.imp fun _ _ h => ⟨h.answers, h.inOrder⟩))
  refine ⟨rows, hrows, joinStreams_answers hanswers fun row hrow => ?_⟩
  have hwidths : List.Forall₂
      (fun fields slot => ∀ row : Row, slot = some row → row.length = fields.length)
      (executed'.map (·.fields)) row.value := by
    refine List.forall₂_map_left_iff.mpr (forall₂_comp hruns (hrows.slots hrow) ?_)
    intro input items slot hrun hslot values hvalues
    obtain ⟨s, hs, rfl⟩ := hslot values hvalues
    exact (hrun.conforming s hs).length_eq
  have hflat := Rowset.flatten_eq_ok 0 hwidths
  rwa [List.map_map] at hflat

theorem Joins.left_join_source_rows :
    ∃ rowset rows,
      (Source.join .left
        [.rows [.plain "a" .boolean true] [⟨.epoch, [.boolean true]⟩, ⟨.epoch, [.boolean false]⟩],
          .rows [.plain "b" .boolean false] [⟨.epoch, [.null]⟩]]).execute .all = .ok rowset ∧
      Joins .left [[⟨.epoch, [.boolean true]⟩, ⟨.epoch, [.boolean false]⟩], [⟨.epoch, [.null]⟩]]
        rows ∧
      rowset.rows.answers =
        (rows.map fun row => ⟨row.timestamp, sideBySide
          [[.plain "a" .boolean true], [.plain "b" .boolean false]] row.value⟩ :
            List (Sample Row)).map .ok := by
  obtain ⟨a, ha, hfields, hruns⟩ : ∃ a, (Source.rows [.plain "a" .boolean true]
      [⟨.epoch, [.boolean true]⟩, ⟨.epoch, [.boolean false]⟩]).execute .all = .ok a ∧
      a.fields = [.plain "a" .boolean true] ∧
      a.Runs [⟨.epoch, [.boolean true]⟩, ⟨.epoch, [.boolean false]⟩] :=
    ⟨_, rfl, rfl, rfl, by simp [InOrder], by simp [Row.Conforms, Field.admits_iff]; decide⟩
  obtain ⟨b, hb, hfields', hruns'⟩ : ∃ b, (Source.rows [.plain "b" .boolean false]
      [⟨.epoch, [.null]⟩]).execute .all = .ok b ∧ b.fields = [.plain "b" .boolean false] ∧
      b.Runs [⟨.epoch, [.null]⟩] :=
    ⟨_, rfl, rfl, rfl, by simp [InOrder], by simp [Row.Conforms, Field.admits_iff]; decide⟩
  obtain ⟨rowset, hrowset⟩ : ∃ rowset, (Source.join .left
      [.rows [.plain "a" .boolean true] [⟨.epoch, [.boolean true]⟩, ⟨.epoch, [.boolean false]⟩],
        .rows [.plain "b" .boolean false] [⟨.epoch, [.null]⟩]]).execute .all = .ok rowset :=
    ⟨_, rfl⟩
  obtain ⟨rows, hrows, hanswers⟩ := Joins.merge_and_source_rows.2 _ _ _ _ _ _ hrowset
    (.cons ha (.cons hb .nil)) (.cons hruns (.cons hruns' .nil))
  rw [List.map_cons, List.map_cons, List.map_nil, hfields, hfields'] at hanswers
  exact ⟨rowset, rows, hrowset, hrows, hanswers⟩

end SeriesQuery
