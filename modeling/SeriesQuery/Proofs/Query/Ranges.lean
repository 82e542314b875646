import SeriesQuery.Proofs.Query.Join
import SeriesQuery.Proofs.Query.Protocol
import SeriesQuery.Proofs.Stream.Chronological

/-!
# Ranges of joined queries

A time range reaches the inputs of a join before they are joined. Where all rows
are in order and conform, this gives the very rowset that a window on the whole
join gives: timestamps in the range have all their rows on both ways, so equal
timestamps are paired as before, and the others have none.
-/

namespace SeriesQuery

-- ---------------------------------------------------------------------------
-- Guarded streams
-- ---------------------------------------------------------------------------

theorem Stream.Guarded.ext {a b : Stream α} (ha : a.Guarded) (hb : b.Guarded)
    (h : a.answers = b.answers) : a = b := by
  obtain ⟨a, rfl⟩ := ha
  obtain ⟨b, rfl⟩ := hb
  rw [answers_guard, answers_guard] at h
  exact guard_congr h

-- ---------------------------------------------------------------------------
-- Joins of cut inputs
-- ---------------------------------------------------------------------------

theorem valuesAt_filter {input : List (Sample α)} {p : Instant → Bool} :
    valuesAt t (input.filter fun s => p s.timestamp) = if p t then valuesAt t input else [] := by
  rw [valuesAt, List.filter_filter]
  split
  · next hp =>
    refine congrArg (List.map _) (List.filter_congr fun s _ => ?_)
    by_cases hs : s.timestamp = t <;> simp [hs, hp]
  · next hp =>
    refine List.map_eq_nil_iff.mpr (List.filter_eq_nil_iff.mpr fun s _ => ?_)
    by_cases hs : s.timestamp = t <;> simp [hs, hp]

theorem Joins.filter {kind : JoinKind} {inputs : List (List (Sample α))}
    {rows : List (Sample (Slots α))} (h : Joins kind inputs rows) (p : Instant → Bool) :
    Joins kind (inputs.map (List.filter fun s => p s.timestamp))
      (rows.filter fun row => p row.timestamp) := by
  refine ⟨h.inOrder.filter, fun t => ?_⟩
  have hvalues : (inputs.map (List.filter fun s => p s.timestamp)).map (valuesAt t) =
      inputs.map fun input => if p t then valuesAt t input else [] := by
    rw [List.map_map]
    exact List.map_congr_left fun input _ => valuesAt_filter
  rw [hvalues, List.filter_filter]
  cases hp : p t with
  | true =>
    have hrows : rows.filter (fun row => decide (row.timestamp = t) && p row.timestamp) =
        rows.filter fun row => row.timestamp = t := by
      refine List.filter_congr fun row _ => ?_
      by_cases hrow : row.timestamp = t <;> simp [hrow, hp]
    rw [hrows, h.rowsAt t]
    rfl
  | false =>
    have hnone : kind.rowCount (inputs.map fun _ => ([] : List α)) = 0 := by
      refine Nat.eq_zero_of_not_pos fun hpos => ?_
      obtain ⟨group, hgroup, hne⟩ := JoinKind.exists_of_rowCount_pos hpos
      obtain ⟨_, -, rfl⟩ := List.mem_map.mp hgroup
      exact hne rfl
    refine (List.filter_eq_nil_iff.mpr fun row _ => ?_).trans (JoinKind.pairUp_eq_nil hnone).symm
    by_cases hrow : row.timestamp = t <;> simp [hrow, hp]

-- ---------------------------------------------------------------------------
-- Rowsets
-- ---------------------------------------------------------------------------

namespace Rowset

variable {rowset out : Rowset} {rows : List (Sample Row)} {range : TimeRange}

theorem ext_of_guarded (hf : rowset.fields = out.fields) (h : rowset.rows.Guarded)
    (ho : out.rows.Guarded) (ha : rowset.rows.answers = out.rows.answers) : rowset = out := by
  obtain ⟨fields, stream⟩ := rowset
  obtain ⟨others, found⟩ := out
  obtain rfl : fields = others := hf
  exact congrArg (Rowset.mk fields) (h.ext ho ha)

theorem window_answers (h : rowset.rows.answers = rows.map .ok) :
    (rowset.window range).rows.answers =
      (rows.filter fun row => range.contains row.timestamp).map .ok := by
  have hkept : (rowset.rows.filterMap fun sample => if range.contains sample.timestamp then
      some (.ok sample) else none).answers =
      (rows.filter fun row => range.contains row.timestamp).map .ok := by
    rw [Stream.answers_filterMap, h, List.filterMap_map]
    clear h
    induction rows with
    | nil => rfl
    | cons row rest ih =>
      rw [List.filterMap_cons, ih, List.filter_cons]
      cases hc : range.contains row.timestamp <;> simp [hc]
  rw [window, Stream.answers_guard, hkept, untilError_map_ok]

theorem Runs.window (h : rowset.Runs rows) :
    (rowset.window range).Runs (rows.filter fun row => range.contains row.timestamp) :=
  ⟨window_answers h.answers, h.inOrder.filter,
    fun row hrow => h.conforming row (List.mem_filter.mp hrow).1⟩

theorem window_comm (h : rowset.Runs rows) :
    (rowset.window range).window other = (rowset.window other).window range := by
  refine ext_of_guarded rfl ⟨_, rfl⟩ ⟨_, rfl⟩ ?_
  rw [window_answers h.window.answers, window_answers h.window.answers, List.filter_comm]

theorem override_window : (rowset.window range).override target change =
    (rowset.override target change).map (window range) := by
  simp only [override, window]
  cases Field.indexOf rowset.fields target with
  | error e => rfl
  | ok index =>
    show QueryError.compiling (Field.validate (rowset.fields.modify index change.apply)) >>= _ =
      (QueryError.compiling (Field.validate (rowset.fields.modify index change.apply)) >>= _).map _
    cases Field.validate (rowset.fields.modify index change.apply) <;> rfl

theorem Runs.override (h : rowset.Runs rows) (ho : rowset.override target change = .ok out) :
    out.Runs rows := by
  simp only [Rowset.override, bind_eq_ok, pure_eq_ok] at ho
  obtain ⟨index, -, _, -, rfl⟩ := ho
  exact ⟨h.answers, h.inOrder, fun row hrow => conforms_modify (h.conforming row hrow)⟩

-- ---------------------------------------------------------------------------
-- Joined rowsets
-- ---------------------------------------------------------------------------

variable {kind : JoinKind} {inputs : List Rowset} {items : List (List (Sample Row))}

theorem join_runs (hruns : List.Forall₂ Runs inputs items) (h : join kind inputs = .ok out) :
    ∃ rows, Joins kind items rows ∧ out.rows.answers =
      (rows.map fun row => ⟨row.timestamp, sideBySide (inputs.map (·.fields)) row.value⟩ :
        List (Sample Row)).map .ok := by
  obtain ⟨-, rfl⟩ := join_eq_ok.mp h
  obtain ⟨rows, hanswers, hrows⟩ := Merge.answers_ofStreams kind
    (List.forall₂_map_left_iff.mpr (hruns.imp fun _ _ h => ⟨h.answers, h.inOrder⟩))
  refine ⟨rows, hrows, joinStreams_answers hanswers fun row hrow => ?_⟩
  have hwidths : List.Forall₂
      (fun fields slot => ∀ row : Row, slot = some row → row.length = fields.length)
      (inputs.map (·.fields)) row.value := by
    refine List.forall₂_map_left_iff.mpr (forall₂_comp hruns (hrows.slots hrow) ?_)
    intro input items slot hrun hslot values hvalues
    obtain ⟨s, hs, rfl⟩ := hslot values hvalues
    exact (hrun.conforming s hs).length_eq
  have hflat := flatten_eq_ok 0 hwidths
  rwa [List.map_map] at hflat

theorem joinedFields_window (index : Nat) :
    joinedFields kind index (inputs.map (window range)) = joinedFields kind index inputs := by
  induction inputs generalizing index with
  | nil => rfl
  | cons input rest ih => rw [List.map_cons, joinedFields, ih, joinedFields]; rfl

theorem join_window (hruns : List.Forall₂ Runs inputs items) :
    join kind (inputs.map (window range)) = (join kind inputs).map (window range) := by
  have hcut : List.Forall₂ Runs (inputs.map (window range))
      (items.map (List.filter fun s => range.contains s.timestamp)) :=
    List.forall₂_map_left_iff.mpr (List.forall₂_map_right_iff.mpr (hruns.imp fun _ _ h => h.window))
  have hfields : (inputs.map (window range)).map (·.fields) = inputs.map (·.fields) := by
    rw [List.map_map]
    rfl
  cases hvalid : Field.validate (joinedFields kind 0 inputs) with
  | error e => simp only [join, joinedFields_window, hvalid]; rfl
  | ok =>
    have hcutValid : Field.validate (joinedFields kind 0 (inputs.map (window range))) = .ok () := by
      rwa [joinedFields_window]
    have hwhole := join_eq_ok.mpr ⟨hvalid, rfl⟩
    have hbounded := join_eq_ok.mpr ⟨hcutValid, rfl⟩
    obtain ⟨rows, hjoins, hrows⟩ := join_runs hruns hwhole
    obtain ⟨others, hothers, hanswers⟩ := join_runs hcut hbounded
    obtain rfl := hothers.unique (hjoins.filter range.contains)
    rw [hwhole, hbounded]
    refine congrArg Except.ok (ext_of_guarded (joinedFields_window 0) ⟨_, rfl⟩ ⟨_, rfl⟩ ?_)
    rw [hanswers, window_answers hrows, hfields, List.filter_map]
    rfl

end Rowset

-- ---------------------------------------------------------------------------
-- Filters
-- ---------------------------------------------------------------------------

namespace Filter

variable {filter : Filter} {filters : List Filter} {rowset out : Rowset} {rows : List (Sample Row)}

/-- A filter that keeps rows as they are or leaves them out by their timestamps. -/
inductive Cuts : Filter → Prop where
  | window : Cuts (.window range)
  | override : Cuts (.override target change)

theorem Cuts.runs (hf : filter.Cuts) (h : rowset.Runs rows) (ho : filter.apply rowset = .ok out) :
    ∃ kept, out.Runs kept := by
  cases hf with
  | window =>
    cases ho
    exact ⟨_, h.window⟩
  | override => exact ⟨rows, h.override ho⟩

theorem Cuts.apply_window (hf : filter.Cuts) (h : rowset.Runs rows) :
    filter.apply (rowset.window range) = (filter.apply rowset).map (Rowset.window range) := by
  cases hf with
  | window => exact congrArg Except.ok (Rowset.window_comm h)
  | override => exact Rowset.override_window

theorem applyAll_runs (hf : ∀ filter ∈ filters, filter.Cuts) (h : rowset.Runs rows)
    (ho : applyAll filters rowset = .ok out) : ∃ kept, out.Runs kept := by
  induction filters generalizing rowset rows with
  | nil =>
    cases ho
    exact ⟨rows, h⟩
  | cons filter rest ih =>
    obtain ⟨hfilter, hrest⟩ := List.forall_mem_cons.mp hf
    simp only [applyAll, applyStaged, bind_eq_ok, QueryError.within_eq_ok] at ho
    obtain ⟨applied, happlied, ho⟩ := ho
    obtain ⟨kept, hkept⟩ := hfilter.runs h happlied
    exact ih hrest hkept ho

theorem applyAll_window (hf : ∀ filter ∈ filters, filter.Cuts) (h : rowset.Runs rows) :
    applyAll filters (rowset.window range) =
      (applyAll filters rowset).map (Rowset.window range) := by
  induction filters generalizing rowset rows with
  | nil => rfl
  | cons filter rest ih =>
    obtain ⟨hfilter, hrest⟩ := List.forall_mem_cons.mp hf
    rw [applyAll, applyAll, applyStaged, applyStaged, hfilter.apply_window h]
    cases happlied : filter.apply rowset with
    | error e => rfl
    | ok applied =>
      obtain ⟨kept, hkept⟩ := hfilter.runs h happlied
      exact ih hrest hkept

end Filter

-- ---------------------------------------------------------------------------
-- Queries
-- ---------------------------------------------------------------------------

namespace Rowset

theorem runs_ofRows {fields : List Field} {samples : List (Sample Row)} {out : Rowset}
    (ho : InOrder samples) (hc : ∀ s ∈ samples, s.value.Conforms fields)
    (h : ofRows fields samples range = .ok out) :
    out.Runs (samples.filter fun s => range.contains s.timestamp) := by
  simp only [ofRows, bind_eq_ok, pure_eq_ok] at h
  obtain ⟨_, -, rfl⟩ := h
  refine ⟨?_, ho.filter, fun s hs => hc s (List.mem_filter.mp hs).1⟩
  rw [Stream.answers_guard, Stream.answers_ofAnswers, ← untilError_map_ok]
  refine congrArg untilError (List.map_congr_left fun s hs => ?_)
  rw [conform_eq_ok.mpr ⟨hc s (List.mem_filter.mp hs).1, rfl⟩]
  rfl

theorem runs_ofSeries {series : Series} :
    (ofSeries series range).Runs
      ((series.scan range).map fun s => ⟨s.timestamp, [s.value]⟩) := by
  refine ⟨?_, List.pairwise_map.mpr ?_, List.forall_mem_map.mpr fun s hs => ?_⟩
  · rw [ofSeries, Stream.answers_guard, Stream.answers_ofAnswers, ← untilError_map_ok, List.map_map]
    rfl
  · rw [Series.scan_eq_filter]
    exact List.Pairwise.filter _ series.inOrder
  · exact conforms_one.mpr ⟨s.value, rfl, series.conforming s (Series.mem_of_mem_scan hs)⟩

theorem ofRows_window {fields : List Field} {samples : List (Sample Row)} {range : TimeRange}
    (ho : InOrder samples) (hc : ∀ s ∈ samples, s.value.Conforms fields) :
    ofRows fields samples range = (ofRows fields samples .all).map (window range) := by
  cases hvalid : Field.validate fields with
  | error e => simp only [ofRows, hvalid]; rfl
  | ok =>
    have hexecuted (range : TimeRange) : ofRows fields samples range = .ok ⟨fields, Stream.guard <|
        Stream.ofAnswers <| (samples.filter fun s => range.contains s.timestamp).map fun s =>
          QueryError.evaluating (Row.conform fields s)⟩ := by
      rw [ofRows, hvalid]
      rfl
    have hwhole := (runs_ofRows ho hc (hexecuted .all)).answers
    have hbounded := (runs_ofRows ho hc (hexecuted range)).answers
    rw [hexecuted, hexecuted]
    refine congrArg Except.ok (ext_of_guarded rfl ⟨_, rfl⟩ ⟨_, rfl⟩ ?_)
    have hall : (samples.filter fun s => TimeRange.all.contains s.timestamp) = samples :=
      List.filter_eq_self.mpr fun _ _ => rfl
    rw [hbounded, window_answers hwhole, hall]

end Rowset

namespace Source

/-- Trees of joins of series and of rows that are in order and conform, with
filters that cut anywhere. -/
inductive JoinTree : Source → Prop where
  | rows : InOrder samples → (∀ s ∈ samples, s.value.Conforms fields) →
      JoinTree (.rows fields samples)
  | series : JoinTree (.series scanned window)
  | join : (∀ input ∈ inputs, JoinTree input) → JoinTree (.join kind inputs)
  | pipeline : JoinTree source → (∀ filter ∈ filters, filter.Cuts) →
      JoinTree (.pipeline source filters)

variable {source : Source} {rowset : Rowset} {range : TimeRange}

theorem JoinTree.library (h : source.JoinTree) : source.Library := by
  induction h with
  | rows => exact .rows
  | series => exact .series
  | join _ ih => exact .join ih
  | pipeline _ _ ih => exact .pipeline ih

theorem JoinTree.runs (h : source.JoinTree) (he : source.execute range = .ok rowset) :
    ∃ rows, rowset.Runs rows := by
  induction h generalizing rowset with
  | rows ho hc => exact ⟨_, Rowset.runs_ofRows ho hc he⟩
  | series =>
    cases he
    exact ⟨_, Rowset.runs_ofSeries⟩
  | @join inputs kind hinputs ih =>
    -- the rows of a join conform because those of its inputs do
    have hconforming := execute_conforming (.join fun input hi => (hinputs input hi).library) he
    obtain ⟨-, executed, hexecuted, hjoin⟩ := execute_join_eq_ok.mp he
    obtain ⟨items, hitems⟩ := exists_forall₂ fun input hinput => by
      obtain ⟨source, hsource, hexecute⟩ := exists_of_forall₂ hexecuted.flip hinput
      exact ih source hsource hexecute
    obtain ⟨rows, hjoins, hanswers⟩ := Rowset.join_runs hitems hjoin
    refine ⟨_, hanswers, List.pairwise_map.mpr hjoins.inOrder, fun row hrow => ?_⟩
    exact Stream.Always.outcome hconforming (.ok row) (hanswers ▸ List.mem_map_of_mem hrow)
  | pipeline _ hfilters ih =>
    rw [execute_pipeline, bind_eq_ok] at he
    obtain ⟨input, hinput, hout⟩ := he
    obtain ⟨rows, hrows⟩ := ih hinput
    exact Filter.applyAll_runs hfilters hrows hout

theorem JoinTree.execute_window (h : source.JoinTree) :
    source.execute range = (source.execute .all).map (Rowset.window range) := by
  induction h with
  | rows ho hc =>
    rw [execute, execute]
    exact Rowset.ofRows_window ho hc
  | @series scanned window =>
    rw [execute, execute]
    refine congrArg Except.ok
      ((Rowset.ofSeries_congr fun t => ?_).trans Rowset.window_ofSeries.symm)
    simp only [TimeRange.contains_intersect]
    exact (Bool.and_comm _ _).trans (congrArg (· && _) rfl)
  | @join inputs kind hinputs ih =>
    have hcut : executeAll range inputs =
        (executeAll .all inputs).map (Except.map (Rowset.window range)) := by
      rw [executeAll_eq, executeAll_eq, List.map_map]
      exact List.map_congr_left ih
    rw [execute, execute, hcut, mapM_map]
    cases hempty : inputs.isEmpty with
    | true => rfl
    | false =>
      cases hwholes : (executeAll .all inputs).mapM id with
      | error e => rfl
      | ok wholes =>
        -- all inputs run through, so their join can be cut
        obtain ⟨items, hitems⟩ : ∃ items, List.Forall₂ Rowset.Runs wholes items := by
          refine exists_forall₂ fun whole hwhole => ?_
          rw [executeAll_eq, mapM_eq_ok, List.forall₂_map_left_iff] at hwholes
          obtain ⟨source, hsource, hexecute⟩ := exists_of_forall₂ hwholes.flip hwhole
          exact (hinputs source hsource).runs hexecute
        exact Rowset.join_window hitems
  | @pipeline source filters hsource hfilters ih =>
    rw [execute_pipeline, execute_pipeline, ih]
    cases hwhole : source.execute .all with
    | error e => rfl
    | ok whole =>
      obtain ⟨rows, hrows⟩ := hsource.runs hwhole
      exact Filter.applyAll_window hfilters hrows

/-- Executing a tree of joins for a range succeeds where executing it unbounded
does, tells the same fields and answers the rows in the range, in their order.
The two executions also fail alike, and the bounded one is a window on the
other to any caller. -/
theorem execute_range_exact (h : source.JoinTree) (range : TimeRange) :
    ((∃ bounded, source.execute range = .ok bounded) ↔
        ∃ whole, source.execute .all = .ok whole) ∧
      source.execute range = (source.execute .all).map (Rowset.window range) ∧
      ∀ whole bounded, source.execute .all = .ok whole → source.execute range = .ok bounded →
        bounded.fields = whole.fields ∧ ∃ rows : List (Sample Row), whole.rows.answers = rows.map .ok ∧
          bounded.rows.answers =
            (rows.filter fun row => range.contains row.timestamp).map .ok := by
  have hwindow : source.execute range = (source.execute .all).map (Rowset.window range) :=
    h.execute_window
  refine ⟨?_, hwindow, fun whole bounded hwhole hbounded => ?_⟩
  · simp only [hwindow, map_eq_ok]
    exact ⟨fun ⟨_, whole, hwhole, _⟩ => ⟨whole, hwhole⟩,
      fun ⟨whole, hwhole⟩ => ⟨_, whole, hwhole, rfl⟩⟩
  · rw [hwindow, hwhole] at hbounded
    cases hbounded
    obtain ⟨rows, hrows⟩ := h.runs hwhole
    exact ⟨rfl, rows, hrows.answers, Rowset.window_answers hrows.answers⟩

def nestedJoin : Source :=
  .join .full
    [.pipeline
      (.join .left
        [.rows [.plain "a" .integer true] [⟨.epoch, [.integer 1]⟩, ⟨.epoch, [.integer 2]⟩,
            ⟨.ofNanos 1, [.integer 3]⟩],
          .series ⟨.plain "b" .integer true, #[⟨.epoch, .integer 4⟩], by simp [InOrder],
            by simp [Field.check]; rfl⟩ .all])
      [.window ⟨some .epoch, none⟩, .override "b" ⟨some "c", none, .empty⟩],
    .rows [.plain "d" .boolean false] [⟨.ofNanos 1, [.null]⟩]]

theorem nestedJoin_tree : nestedJoin.JoinTree := by
  refine .join (List.forall_mem_cons.mpr ⟨?_, List.forall_mem_singleton.mpr (.rows ?_ ?_)⟩)
  · refine .pipeline (.join (List.forall_mem_cons.mpr
      ⟨.rows ?_ ?_, List.forall_mem_singleton.mpr .series⟩)) ?_
    · simp [InOrder]
      decide
    · simp [Row.Conforms, Field.admits_iff]
      decide
    · exact List.forall_mem_cons.mpr ⟨.window, List.forall_mem_singleton.mpr .override⟩
  · simp [InOrder]
  · simp [Row.Conforms, Field.admits_iff]
    decide

theorem nested_join_cut :
    nestedJoin.JoinTree ∧ ∃ whole bounded,
      nestedJoin.execute .all = .ok whole ∧
      nestedJoin.execute ⟨none, some (.ofNanos 1)⟩ = .ok bounded ∧
      bounded.fields = whole.fields ∧
      ∃ rows : List (Sample Row), whole.rows.answers = rows.map .ok ∧
        bounded.rows.answers = (rows.filter fun row =>
          TimeRange.contains ⟨none, some (.ofNanos 1)⟩ row.timestamp).map .ok := by
  obtain ⟨whole, hwhole⟩ : ∃ whole, nestedJoin.execute .all = .ok whole := ⟨_, rfl⟩
  obtain ⟨hsucceeds, -, hrows⟩ :=
    execute_range_exact nestedJoin_tree ⟨none, some (.ofNanos 1)⟩
  obtain ⟨bounded, hbounded⟩ := hsucceeds.mpr ⟨whole, hwhole⟩
  exact ⟨nestedJoin_tree, whole, bounded, hwhole, hbounded,
    hrows whole bounded hwhole hbounded⟩

end Source

end SeriesQuery
