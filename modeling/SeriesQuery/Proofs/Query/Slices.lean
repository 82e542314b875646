import SeriesQuery.Proofs.Query.Join
import SeriesQuery.Proofs.Resample.Align

/-!
# A reduction folds the slices of its inputs

An aligned series has one value for each bucket in which the series has samples.
A slice is what aligned inputs have at one start. A reduction answers, in the
order of the starts, one row for each bucket with samples of every input: the
fold of the slice. It ends with the first slice whose fold fails.
-/

namespace SeriesQuery

/-- The values that aligned inputs have at the start of a bucket, in the order of
the inputs. -/
def slice (start : Instant) (aligned : List (List (Sample Row))) : List Value :=
  (aligned.flatMap (valuesAt start)).flatten

namespace Reduction

def ofValues (reduction : Reduction) (type : DataType) (values : List Value) :
    Except EvalError Value := do
  (← values.foldlM Accumulator.add (reduction.start type)).result

/-- The answer for the values of a slice. The value of an input that is alone is
its own sum and its own extreme. -/
def answer (reduction : Reduction) (type : DataType) (start : Instant) (values : List Value) :
    Except QueryError (Sample Row) :=
  if values.length = 1 ∧ reduction.usesIdentity = true then .ok ⟨start, values⟩
  else QueryError.evaluating <| EvalError.within "join" <|
    (reduction.ofValues type values).map fun value => ⟨start, [value]⟩

end Reduction

/-- Every input has samples in the bucket that starts at an instant. -/
def Grid.Shared (grid : Grid) (inputs : List (List (Sample Row))) (start : Instant) : Prop :=
  ∀ items ∈ inputs, ∃ s ∈ items, grid.align s.timestamp = some start

-- ---------------------------------------------------------------------------
-- Folds
-- ---------------------------------------------------------------------------

theorem Reduction.fold_slice {reduction : Reduction} {type : DataType}
    (hn : type.isNumeric = true) (values : List Value) :
    reduction.fold type stage (values.map fun value => some [value]) =
      (reduction.ofValues type values).map fun value => [value] := by
  have hslots : (values.map fun value => some [value]).filterMap id =
      values.map fun value => [value] := by
    simp [List.filterMap_map]
  rw [fold, hslots, List.foldlM_map, ofValues]
  simp only [List.head?_cons]
  cases hfold : values.foldlM Accumulator.add (reduction.start type) with
  | error e => rfl
  | ok accumulator =>
    have hruns := foldlM_keeps (Accumulator.Runs type reduction) (fun _ _ _ _ hs ht => hs.add ht)
      Accumulator.runs_start hfold
    obtain ⟨value, hvalue⟩ := hruns.exists_result hn
    simp only [Bind.bind, Except.bind, hvalue]
    rfl

-- ---------------------------------------------------------------------------
-- Aligned inputs
-- ---------------------------------------------------------------------------

structure Grid.Aligns (grid : Grid) (items rows : List (Sample Row)) : Prop where
  ascending : rows.Pairwise fun a b => a.timestamp < b.timestamp
  occupied : ∀ b, (∃ row ∈ rows, row.timestamp = b) ↔
    ∃ s ∈ items, grid.align s.timestamp = some b
  single : ∀ row ∈ rows, ∃ value, row.value = [value]

theorem Rowset.exists_align (grid : Grid) {rowset : Rowset} {field : Field}
    {items : List (Sample Row)} (hfields : rowset.fields = [field])
    (hnumeric : field.dataType.isNumeric = true) (hrequired : field.required = true)
    (hanswers : rowset.rows.answers = items.map .ok) :
    ∃ out, rowset.align grid = .ok out ∧ out.rows.answers = untilError
      (transduced (Alignment.step grid field.dataType ("align(" ++ field.urn ++ ")")) .initial
        (items.map .ok)) := by
  refine ⟨_, align_eq_ok grid hfields hnumeric hrequired, ?_⟩
  rw [Stream.answers_guard, Stream.answers_transduce, hanswers]

/-- The rows of an aligned series conform where those of the series do. Only the
answers of a whole run count, whatever the series is told otherwise. -/
theorem Rowset.alignSingle_conforming {input : Rowset} {single : SingleRowset}
    (hc : ∀ s, .ok s ∈ input.rows.answers → s.value.Conforms input.fields)
    (h : input.alignSingle grid = .ok single) :
    ∀ s, .ok s ∈ single.rows.answers → s.value.Conforms [single.field] := by
  obtain ⟨hfields, hrequired, hrows⟩ := alignSingle_eq_ok h
  have htold : (⟨input.fields, Stream.ofAnswers input.rows.answers⟩ : Rowset).Conforming :=
    Stream.always_ofAnswers fun answer ha => by
      cases answer with
      | error e => trivial
      | ok s => exact hc s ha
  have haligned := htold.align (align_eq_ok grid hfields (alignSingle_numeric h) hrequired)
  intro s hs
  refine Stream.Always.outcome haligned (.ok s) ?_
  rw [Stream.answers_guard, Stream.answers_transduce, Stream.answers_ofAnswers]
  rwa [hrows, Stream.answers_guard, Stream.answers_transduce] at hs

theorem Rowset.Runs.aligns (period : Period) {input : Rowset} {single : SingleRowset}
    {items rows : List (Sample Row)} (hruns : input.Runs items)
    (h : input.alignSingle period.grid = .ok single) (hrows : single.rows.answers = rows.map .ok) :
    period.grid.Aligns items rows := by
  have hconforming := alignSingle_conforming
    (fun s hs => hruns.conforming s (by simpa [hruns.answers] using hs)) h
  have hrun := hrows
  rw [(alignSingle_eq_ok h).2.2, Stream.answers_guard, untilError_eq_map_ok,
    Stream.answers_transduce, hruns.answers] at hrun
  obtain ⟨hascending, hmem⟩ :=
    Alignment.transduced_timestamps period.floors hruns.inOrder hrun
  refine ⟨List.pairwise_map.mp hascending, fun b => ?_, fun row hrow => ?_⟩
  · rw [← hmem, List.mem_map]
  · obtain ⟨value, hvalue, -⟩ := conforms_one.mp (hconforming row (by simpa [hrows] using hrow))
    exact ⟨value, hvalue⟩

theorem valuesAt_of_ascending {rows : List (Sample α)} {row : Sample α}
    (ho : rows.Pairwise fun a b => a.timestamp < b.timestamp) (hrow : row ∈ rows) :
    valuesAt row.timestamp rows = [row.value] := by
  induction rows with
  | nil => cases hrow
  | cons first rest ih =>
    obtain ⟨hfirst, hrest⟩ := List.pairwise_cons.mp ho
    rcases List.mem_cons.mp hrow with rfl | hrow
    · have hlater : ∀ s ∈ rest, s.timestamp ≠ row.timestamp := fun s hs heq => by
        have := hfirst s hs
        grind
      rw [valuesAt_cons_self, valuesAt_eq_nil hlater]
    · have hearlier : first.timestamp ≠ row.timestamp := fun heq => by
        have := hfirst row hrow
        grind
      rw [valuesAt_cons_of_ne hearlier, ih hrest hrow]

theorem Grid.Aligns.valuesAt {grid : Grid} {items rows : List (Sample Row)}
    (h : grid.Aligns items rows) (hs : ∃ s ∈ items, grid.align s.timestamp = some b) :
    ∃ value, valuesAt b rows = [[value]] := by
  obtain ⟨row, hrow, rfl⟩ := (h.occupied b).mpr hs
  obtain ⟨value, hvalue⟩ := h.single row hrow
  exact ⟨value, hvalue ▸ valuesAt_of_ascending h.ascending hrow⟩

theorem Grid.Aligns.valuesAt_eq_nil {grid : Grid} {items rows : List (Sample Row)}
    (h : grid.Aligns items rows) (hs : ¬ ∃ s ∈ items, grid.align s.timestamp = some b) :
    SeriesQuery.valuesAt b rows = [] :=
  SeriesQuery.valuesAt_eq_nil fun row hrow hb => hs ((h.occupied b).mp ⟨row, hrow, hb⟩)

theorem Grid.Shared.valuesAt {grid : Grid} {inputs aligned : List (List (Sample Row))}
    (ha : List.Forall₂ grid.Aligns inputs aligned) (h : grid.Shared inputs b) :
    ∀ rows ∈ aligned, ∃ value, SeriesQuery.valuesAt b rows = [[value]] := by
  intro rows hrows
  obtain ⟨items, hitems, haligns⟩ := exists_of_forall₂ ha.flip hrows
  exact haligns.valuesAt (h items hitems)

-- ---------------------------------------------------------------------------
-- Slices
-- ---------------------------------------------------------------------------

theorem slice_values {aligned : List (List (Sample Row))}
    (h : ∀ rows ∈ aligned, ∃ value, valuesAt b rows = [[value]]) :
    List.Forall₂ (fun rows value => valuesAt b rows = [[value]]) aligned (slice b aligned) := by
  induction aligned with
  | nil => exact .nil
  | cons rows rest ih =>
    obtain ⟨⟨value, hvalue⟩, hrest⟩ := List.forall_mem_cons.mp h
    have hslice : slice b (rows :: rest) = value :: slice b rest := by simp [slice, hvalue]
    exact hslice ▸ .cons hvalue (ih hrest)

theorem Grid.Shared.slice_length {grid : Grid} {inputs aligned : List (List (Sample Row))}
    (ha : List.Forall₂ grid.Aligns inputs aligned) (h : grid.Shared inputs b) :
    (slice b aligned).length = aligned.length :=
  (slice_values (h.valuesAt ha)).length_eq.symm

theorem JoinKind.pairUp_slice {aligned : List (List (Sample Row))} {values : List Value}
    (hne : aligned ≠ [])
    (h : List.Forall₂ (fun rows value => valuesAt b rows = [[value]]) aligned values) :
    inner.pairUp b (aligned.map (valuesAt b)) = [⟨b, values.map fun value => some [value]⟩] := by
  have hvalues : aligned.map (valuesAt b) = values.map fun value => [[value]] := by
    rw [← List.forall₂_eq_eq_eq, List.forall₂_map_left_iff, List.forall₂_map_right_iff]
    exact h
  have hsome : values ≠ [] := by
    rintro rfl
    exact hne (List.forall₂_nil_right_iff.mp h)
  have hone : (values.map fun value => [[value]]).map List.tail ≠ [] := by simpa
  have hnone : inner.rowCount ((values.map fun value => [[value]]).map List.tail) = 0 := by
    obtain ⟨value, rest, rfl⟩ := List.exists_cons_of_ne_nil hsome
    exact rowCount_inner_of_nil_mem List.mem_cons_self
  rw [hvalues, pairUp_of_pos (rowCount_inner_pos (by simpa) (by simp)), pairUp_eq_nil hnone]
  simp [Function.comp_def]

theorem InOrder.ascending {rows : List (Sample α)} (ho : InOrder rows)
    (h : ∀ t, (rows.filter fun row => row.timestamp = t).length ≤ 1) :
    rows.Pairwise fun a b => a.timestamp < b.timestamp := by
  induction rows with
  | nil => exact .nil
  | cons first rest ih =>
    obtain ⟨hfirst, hrest⟩ := List.pairwise_cons.mp ho
    refine List.pairwise_cons.mpr ⟨fun row hrow => ?_, ih hrest fun t => ?_⟩
    · have hone := h first.timestamp
      rw [List.filter_cons_of_pos (by simp), List.length_cons] at hone
      have hnone := List.eq_nil_of_length_eq_zero (Nat.le_zero.mp (Nat.le_of_succ_le_succ hone))
      have hne : row.timestamp ≠ first.timestamp := by
        simpa using List.filter_eq_nil_iff.mp hnone row hrow
      have hle := hfirst row hrow
      grind
    · refine Nat.le_trans ?_ (h t)
      exact ((List.sublist_cons_self first rest).filter _).length_le

theorem Joins.slices {grid : Grid} {inputs aligned : List (List (Sample Row))}
    {joined : List (Sample (Slots Row))} (h : Joins .inner aligned joined) (hne : aligned ≠ [])
    (ha : List.Forall₂ grid.Aligns inputs aligned) :
    ∃ starts : List Instant, starts.Pairwise (· < ·) ∧
      (∀ b, b ∈ starts ↔ grid.Shared inputs b) ∧
      joined = starts.map fun b => ⟨b, (slice b aligned).map fun value => some [value]⟩ := by
  -- an instant has one row of the join, or none where an input lacks samples
  have hshared : ∀ b, grid.Shared inputs b → joined.filter (fun row => row.timestamp = b) =
      [⟨b, (slice b aligned).map fun value => some [value]⟩] := by
    intro b hb
    rw [h.rowsAt b]
    exact JoinKind.pairUp_slice hne (slice_values (Grid.Shared.valuesAt ha hb))
  have hlacking : ∀ b, ¬ grid.Shared inputs b →
      joined.filter (fun row => row.timestamp = b) = [] := by
    intro b hb
    simp only [Grid.Shared, not_forall] at hb
    obtain ⟨items, hitems, hmissing⟩ := hb
    obtain ⟨rows, hrows, haligns⟩ := exists_of_forall₂ ha hitems
    have hempty : [] ∈ aligned.map (valuesAt b) :=
      List.mem_map.mpr ⟨rows, hrows, haligns.valuesAt_eq_nil hmissing⟩
    rw [h.rowsAt b, JoinKind.pairUp_eq_nil (JoinKind.rowCount_inner_of_nil_mem hempty)]
  have hrow : ∀ row ∈ joined, grid.Shared inputs row.timestamp ∧
      row = ⟨row.timestamp, (slice row.timestamp aligned).map fun value => some [value]⟩ := by
    intro row hrow
    have hat : row ∈ joined.filter fun r => r.timestamp = row.timestamp := by simpa using hrow
    by_cases hb : grid.Shared inputs row.timestamp
    · exact ⟨hb, List.mem_singleton.mp (hshared _ hb ▸ hat)⟩
    · rw [hlacking _ hb] at hat
      cases hat
  have hascending := h.inOrder.ascending fun b => by
    by_cases hb : grid.Shared inputs b
    · simp [hshared b hb]
    · simp [hlacking b hb]
  refine ⟨joined.map (·.timestamp), List.pairwise_map.mpr hascending, fun b => ⟨?_, fun hb => ?_⟩,
    ?_⟩
  · intro hb
    obtain ⟨row, hmem, rfl⟩ := List.mem_map.mp hb
    exact (hrow row hmem).1
  · have hmem := hshared b hb ▸ List.mem_singleton_self _
    exact List.mem_map.mpr ⟨_, (List.mem_filter.mp hmem).1, rfl⟩
  · rw [List.map_map]
    exact (List.map_id' joined).symm.trans (List.map_congr_left fun row hmem => (hrow row hmem).2)

-- ---------------------------------------------------------------------------
-- Reductions
-- ---------------------------------------------------------------------------

theorem Grid.Aligns.streams {grid : Grid} {singles : List SingleRowset}
    {inputs aligned : List (List (Sample Row))}
    (hrows : List.Forall₂ (fun single rows => single.rows.answers = rows.map .ok) singles aligned)
    (ha : List.Forall₂ grid.Aligns inputs aligned) :
    List.Forall₂ (fun stream rows => stream.answers = rows.map .ok ∧ InOrder rows)
      (singles.map (·.rows)) aligned := by
  have hordered : ∀ rows ∈ aligned, InOrder rows := by
    intro rows hmem
    obtain ⟨items, -, haligns⟩ := exists_of_forall₂ ha.flip hmem
    exact haligns.ascending.imp Std.le_of_lt
  have hboth := (List.forall₂_and_left aligned singles).mpr ⟨hordered, hrows.flip⟩
  exact List.forall₂_map_left_iff.mpr (hboth.flip.imp fun _ _ h => ⟨h.2, h.1⟩)

theorem Grid.Aligns.rows_eq_slices {grid : Grid} {items rows : List (Sample Row)}
    (h : grid.Aligns items rows) :
    rows = (rows.map (·.timestamp)).map fun b => ⟨b, slice b [rows]⟩ := by
  have hrow : ∀ row ∈ rows, row = ⟨row.timestamp, slice row.timestamp [rows]⟩ := by
    intro row hmem
    simp [slice, valuesAt_of_ascending h.ascending hmem]
  rw [List.map_map]
  exact (List.map_id' rows).symm.trans (List.map_congr_left hrow)

theorem Rowset.reduceAligned_answers {grid : Grid} {reduction : Reduction} {template : Field}
    {singles : List SingleRowset} {out : Rowset} {inputs aligned : List (List (Sample Row))}
    (hnumeric : ∀ single ∈ singles, single.field.dataType.isNumeric = true)
    (hrows : List.Forall₂ (fun single rows => single.rows.answers = rows.map .ok) singles aligned)
    (ha : List.Forall₂ grid.Aligns inputs aligned)
    (h : reduceAligned reduction template singles = .ok out) :
    ∃ (type : DataType) (starts : List Instant),
      (∀ single ∈ singles, single.field.dataType = type) ∧ starts.Pairwise (· < ·) ∧
      (∀ b, b ∈ starts ↔ grid.Shared inputs b) ∧
      out.rows.answers = untilError
        (starts.map fun b => reduction.answer type b (slice b aligned)) := by
  have hstreams := Grid.Aligns.streams hrows ha
  cases hrows with
  | nil => cases h
  | @cons first rows rest others hfirst hrest =>
    simp only [reduceAligned, bind_eq_ok, QueryError.compiling_eq_ok] at h
    obtain ⟨_, hchecked, h⟩ := h
    have htypes := fun single hsingle => (checkInputs_eq_ok.mp hchecked single hsingle).1
    split at h
    · -- the only input passes as it is
      next halone =>
      obtain ⟨hnone, hidentity⟩ := Bool.and_eq_true_iff.mp halone
      obtain rfl := List.isEmpty_iff.mp hnone
      obtain rfl := List.forall₂_nil_left_iff.mp hrest
      obtain ⟨items, _, haligns, hnil, rfl⟩ := List.forall₂_cons_right_iff.mp ha
      obtain rfl := List.forall₂_nil_right_iff.mp hnil
      obtain rfl := pure_eq_ok.mp h
      have hshared : ∀ b, b ∈ rows.map (·.timestamp) ↔ grid.Shared [items] b := by
        intro b
        rw [List.mem_map, haligns.occupied b]
        simp [Grid.Shared]
      refine ⟨_, rows.map (·.timestamp), htypes,
        List.pairwise_map.mpr haligns.ascending, hshared, ?_⟩
      show first.rows.answers = _
      rw [hfirst, ← untilError_map_ok]
      conv_lhs => rw [haligns.rows_eq_slices, List.map_map]
      refine congrArg untilError (List.map_congr_left fun b hb => ?_)
      rw [Reduction.answer, if_pos ⟨((hshared b).mp hb).slice_length ha, hidentity⟩]
      rfl
    · -- slices of several inputs, or of a reduction that changes what is alone
      next hfolds =>
      obtain rfl := pure_eq_ok.mp h
      obtain ⟨joined, hjoined, hjoins⟩ := Merge.answers_ofStreams .inner hstreams
      obtain ⟨starts, hascending, hshared, rfl⟩ := hjoins.slices (List.cons_ne_nil _ _) ha
      refine ⟨_, starts, htypes, hascending, hshared, ?_⟩
      rw [joinStreams_untilError _ hjoined, List.map_map]
      refine congrArg untilError (List.map_congr_left fun b hb => ?_)
      have hmany : ¬ ((slice b (rows :: others)).length = 1 ∧ reduction.usesIdentity = true) := by
        rintro ⟨hone, hidentity⟩
        rw [((hshared b).mp hb).slice_length ha, List.length_cons, ← hrest.length_eq] at hone
        exact hfolds (by simpa [hidentity] using hone)
      rw [Reduction.answer, if_neg hmany, Function.comp_apply,
        Reduction.fold_slice (hnumeric first List.mem_cons_self)]
      cases reduction.ofValues first.field.dataType (slice b (rows :: others)) <;> rfl

namespace Source

/-- A reduction of sources in order answers one row for each bucket that they
share, in the order of the buckets: the fold of what the aligned sources have
there. It ends with the first fold that fails. -/
theorem reduce_answers_slices (period : Period) {sources : List Source} {executed : List Rowset}
    {inputs aligned : List (List (Sample Row))} {rowset : Rowset} (hne : sources ≠ [])
    (hsources : List.Forall₂ (fun source input => source.execute range = .ok input) sources executed)
    (hruns : List.Forall₂ Rowset.Runs executed inputs)
    (haligned : List.Forall₂ (fun input rows => ∃ out, Rowset.align period.grid input = .ok out ∧
      out.rows.answers = rows.map .ok) executed aligned)
    (h : (Source.reduce reduction period.grid template sources fallback).execute range =
      .ok rowset) :
    ∃ (type : DataType) (starts : List Instant),
      (∀ input ∈ executed, ∃ field, input.fields = [field] ∧ field.dataType = type) ∧
      starts.Pairwise (· < ·) ∧
      (∀ b, b ∈ starts ↔ ∀ items ∈ inputs, ∃ s ∈ items, period.grid.align s.timestamp = some b) ∧
      (∀ b ∈ starts, List.Forall₂ (fun rows value => valuesAt b rows = [[value]]) aligned
        (slice b aligned)) ∧
      rowset.rows.answers = untilError
        (starts.map fun b => reduction.answer type b (slice b aligned)) := by
  obtain ⟨executed', singles, hsources', hsingles, hreduced⟩ := (execute_reduce_eq_ok hne).mp h
  have hsame : executed' = executed := by
    refine List.right_unique_forall₂' (fun source a b ha hb => ?_) hsources' hsources
    exact Except.ok.inj (ha.symm.trans hb)
  subst hsame
  have hrows : List.Forall₂ (fun single rows => single.rows.answers = rows.map .ok) singles
      aligned := by
    refine forall₂_comp hsingles.flip haligned fun single input rows hsingle hout => ?_
    obtain ⟨out, hout, hanswers⟩ := hout
    obtain ⟨_, hsingle', rfl⟩ := map_eq_ok.mp hout
    obtain rfl := Except.ok.inj (hsingle.symm.trans hsingle')
    exact hanswers
  have hsingle : List.Forall₂ (fun items single => ∃ input : Rowset, input.Runs items ∧
      input.alignSingle period.grid = .ok single) inputs singles :=
    forall₂_comp hruns.flip hsingles fun _ input _ hrun h => ⟨input, hrun, h⟩
  have ha : List.Forall₂ period.grid.Aligns inputs aligned :=
    forall₂_comp hsingle hrows fun _ _ _ ⟨_, hrun, h⟩ hanswers => hrun.aligns period h hanswers
  have hnumeric : ∀ single ∈ singles, single.field.dataType.isNumeric = true := by
    intro single hmem
    obtain ⟨input, -, hsingle⟩ := exists_of_forall₂ hsingles.flip hmem
    exact alignSingle_numeric hsingle
  obtain ⟨type, starts, htypes, hascending, hshared, hanswers⟩ :=
    Rowset.reduceAligned_answers hnumeric hrows ha hreduced
  refine ⟨type, starts, fun input hinput => ?_, hascending, hshared,
    fun b hb => slice_values (((hshared b).mp hb).valuesAt ha), hanswers⟩
  obtain ⟨single, hmem, hsingle⟩ := exists_of_forall₂ hsingles hinput
  exact ⟨single.field, (alignSingle_eq_ok hsingle).1, htypes single hmem⟩

def unevenSeries : List Source :=
  [.rows [.plain "a" .integer true] Rowset.twoMonths,
    .rows [.plain "b" .integer true] [⟨Rowset.february, [.integer 4]⟩]]

theorem reduce_answers_february :
    ∃ period rowset executed, (PeriodSpec.calendar .month 3600).build = .ok period ∧
      unevenSeries ≠ [] ∧
      List.Forall₂ (fun source input => source.execute .all = .ok input) unevenSeries executed ∧
      List.Forall₂ Rowset.Runs executed
        [Rowset.twoMonths, [⟨Rowset.february, [.integer 4]⟩]] ∧
      List.Forall₂ (fun input rows => ∃ out, Rowset.align period.grid input = .ok out ∧
        out.rows.answers = rows.map .ok) executed
        [[⟨Rowset.january, [.integer 1]⟩, ⟨Rowset.february, [.integer 9]⟩],
          [⟨Rowset.february, [.integer 4]⟩]] ∧
      (Source.reduce .sum period.grid (.plain "total" .integer true) unevenSeries none).execute
        .all = .ok rowset ∧
      ∃ (type : DataType) (starts : List Instant),
        (∀ input ∈ executed, ∃ field, input.fields = [field] ∧ field.dataType = type) ∧
        starts.Pairwise (· < ·) ∧
        (∀ b, b ∈ starts ↔
          ∀ items ∈ [Rowset.twoMonths, [⟨Rowset.february, [.integer 4]⟩]],
            ∃ s ∈ items, period.grid.align s.timestamp = some b) ∧
        (∀ b ∈ starts, List.Forall₂ (fun rows value => valuesAt b rows = [[value]])
          [[⟨Rowset.january, [.integer 1]⟩, ⟨Rowset.february, [.integer 9]⟩],
            [⟨Rowset.february, [.integer 4]⟩]]
          (slice b [[⟨Rowset.january, [.integer 1]⟩, ⟨Rowset.february, [.integer 9]⟩],
            [⟨Rowset.february, [.integer 4]⟩]])) ∧
        rowset.rows.answers = untilError (starts.map fun b => Reduction.sum.answer type b
          (slice b [[⟨Rowset.january, [.integer 1]⟩, ⟨Rowset.february, [.integer 9]⟩],
            [⟨Rowset.february, [.integer 4]⟩]])) := by
  let period : Period := .calendar ⟨.month, ⟨3600, by decide, by decide⟩⟩
  have hbuckets : period.grid.align .epoch = some Rowset.january ∧
      period.grid.align (.ofNanos 86400000000000) = some Rowset.january ∧
      period.grid.align Rowset.february = some Rowset.february := by decide
  have hne : Rowset.january ≠ Rowset.february := by decide
  obtain ⟨a, ha, hfields, hruns⟩ : ∃ a,
      (Source.rows [.plain "a" .integer true] Rowset.twoMonths).execute .all = .ok a ∧
      a.fields = [.plain "a" .integer true] ∧ a.Runs Rowset.twoMonths :=
    ⟨_, rfl, rfl, rfl, Rowset.twoMonths_inOrder,
      by simp [Rowset.twoMonths, Row.Conforms, Field.admits_iff]; decide⟩
  obtain ⟨b, hb, hfields', hruns'⟩ : ∃ b, (Source.rows [.plain "b" .integer true]
      [⟨Rowset.february, [.integer 4]⟩]).execute .all = .ok b ∧
      b.fields = [.plain "b" .integer true] ∧ b.Runs [⟨Rowset.february, [.integer 4]⟩] :=
    ⟨_, rfl, rfl, rfl, List.pairwise_singleton _ _,
      by simp [Row.Conforms, Field.admits_iff]; decide⟩
  obtain ⟨rowset, hrowset⟩ : ∃ rowset, (Source.reduce .sum period.grid
      (.plain "total" .integer true) unevenSeries none).execute .all = .ok rowset := ⟨_, rfl⟩
  have hexecuted : List.Forall₂ (fun source input => source.execute .all = .ok input) unevenSeries
      [a, b] := .cons ha (.cons hb .nil)
  have haligned : List.Forall₂ (fun input rows => ∃ out, Rowset.align period.grid input = .ok out ∧
      out.rows.answers = rows.map .ok) [a, b]
        [[⟨Rowset.january, [.integer 1]⟩, ⟨Rowset.february, [.integer 9]⟩],
          [⟨Rowset.february, [.integer 4]⟩]] := by
    obtain ⟨out, hout, hanswers⟩ :=
      Rowset.exists_align period.grid hfields rfl rfl hruns.answers
    obtain ⟨out', hout', hanswers'⟩ :=
      Rowset.exists_align period.grid hfields' rfl rfl hruns'.answers
    refine .cons ⟨out, hout, ?_⟩ (.cons ⟨out', hout', ?_⟩ .nil)
    · rw [hanswers]
      simp [Rowset.twoMonths, transduced, untilError, Alignment.step, Alignment.initial,
        Alignment.bucketSample, QueryError.evaluating, Row.first, hbuckets, hne]
    · rw [hanswers']
      simp [transduced, untilError, Alignment.step, Alignment.initial,
        Alignment.bucketSample, QueryError.evaluating, Row.first, hbuckets]
  exact ⟨_, rowset, [a, b], rfl, List.cons_ne_nil _ _, hexecuted, .cons hruns (.cons hruns' .nil),
    haligned, hrowset, reduce_answers_slices _ (List.cons_ne_nil _ _) hexecuted
      (.cons hruns (.cons hruns' .nil)) haligned hrowset⟩

end Source

end SeriesQuery
