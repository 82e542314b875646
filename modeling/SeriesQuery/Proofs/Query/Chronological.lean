import SeriesQuery.Proofs.Query.Conformance
import SeriesQuery.Proofs.Query.Fusion
import SeriesQuery.Proofs.Rowset.Chronological

/-!
# The rows of whole queries are in order

The samples of a series are in order by its invariant. If the rows in memory are
in order as well, and the grids of a query are those of periods, every stage of
the query is chronological, and so is what any caller is answered.
-/

namespace SeriesQuery

-- ---------------------------------------------------------------------------
-- Callers
-- ---------------------------------------------------------------------------

theorem Traversal.chronological_answers (traversal : Traversal) (commands : List Command)
    {last : Option Instant}
    (h : ∀ cancelled, (traversal.rows cancelled).Chronological last) :
    Chronological last ((traversal.answers commands).filterMap id) := by
  induction commands generalizing traversal last with
  | nil => trivial
  | cons command rest ih =>
    cases command with
    | cancel => exact ih _ h
    | pull =>
      have hpull := h traversal.cancelled
      simp only [answers, pull]
      cases hp : traversal.rows traversal.cancelled with
      | stop => exact ih { traversal with rows := Stream.empty } fun _ => trivial
      | item answer next =>
        rw [hp] at hpull
        cases answer with
        | error e => exact ⟨hpull.1, ih { traversal with rows := next } hpull.2⟩
        | ok sample => exact ⟨hpull.1, ih { traversal with rows := next } hpull.2⟩

-- ---------------------------------------------------------------------------
-- Sources of rows
-- ---------------------------------------------------------------------------

namespace Rowset

theorem faultless_conform {fields : List Field} {sample : Sample Row} :
    Faultless (Row.conform fields sample) := by
  unfold Row.conform
  split
  · exact id
  · exact (Faultless.forM fun _ _ => Field.faultless_check.within).bind fun _ => faultless_pure

theorem conform_timestamp {fields : List Field} {sample out : Sample Row}
    (h : Row.conform fields sample = .ok out) : out.timestamp = sample.timestamp := by
  obtain ⟨-, rfl⟩ := conform_eq_ok.mp h
  rfl

theorem ofRows_chronological {fields : List Field} {samples : List (Sample Row)} {rowset : Rowset}
    (ho : InOrder samples) (h : ofRows fields samples range = .ok rowset) :
    rowset.Chronological := by
  simp only [ofRows, bind_eq_ok, pure_eq_ok] at h
  obtain ⟨_, -, rfl⟩ := h
  refine Stream.chronological_guard ?_
  rw [Stream.answers_ofAnswers]
  exact ho.filter.chronological_map (by simp) fun _ =>
    faultless_conform.evaluating fun _ => conform_timestamp

theorem ofSeries_chronological {series : Series} : (ofSeries series range).Chronological := by
  refine Stream.chronological_guard ?_
  rw [Stream.answers_ofAnswers, Series.scan_eq_filter]
  exact series.inOrder.filter.chronological_map (by simp) fun _ => rfl

end Rowset

-- ---------------------------------------------------------------------------
-- Queries
-- ---------------------------------------------------------------------------

/-- The grid of an alignment is that of a period with a description. -/
def Filter.OnPeriod : Filter → Prop
  | .align grid => ∃ (spec : PeriodSpec) (period : Period),
    spec.build = .ok period ∧ grid = period.grid
  | _ => True

theorem Filter.apply_chronological {filter : Filter} {input out : Rowset} (hp : filter.OnPeriod)
    (h : input.Chronological) (hc : input.Conforming) (ho : filter.apply input = .ok out) :
    out.Chronological := by
  cases filter with
  | window range =>
    cases ho
    exact h.window
  | align grid =>
    obtain ⟨_, period, hspec, rfl⟩ := hp
    exact h.align (PeriodSpec.lawful hspec) ho
  | gapFill fill => exact h.gapFill ho
  | delta => exact h.delta ho
  | rate => exact h.rate ho
  | counterDelta maximum => exact h.counterDelta ho
  | project columns => exact h.project hc ho
  | keepWhere predicate => exact h.keepWhere hc ho
  | override target change => exact h.override ho

theorem Filter.applyAll_chronological {filters : List Filter} {input out : Rowset}
    (hp : ∀ filter ∈ filters, filter.OnPeriod) (h : input.Chronological) (hc : input.Conforming)
    (ho : Filter.applyAll filters input = .ok out) : out.Chronological := by
  induction filters generalizing input with
  | nil =>
    cases ho
    exact h
  | cons filter rest ih =>
    obtain ⟨hfilter, hrest⟩ := List.forall_mem_cons.mp hp
    simp only [applyAll, applyStaged, bind_eq_ok, QueryError.within_eq_ok] at ho
    obtain ⟨applied, happlied, ho⟩ := ho
    exact ih hrest (apply_chronological hfilter h hc happlied) (apply_conforming hc happlied) ho

namespace Source

/-- A query of the library on rows in order whose grids are those of periods with a
description. -/
inductive Ordered : Source → Prop
  | rows : InOrder samples → Ordered (.rows fields samples)
  | series : Ordered (.series scanned window)
  | join : (∀ input ∈ inputs, Ordered input) → Ordered (.join kind inputs)
  | reduce {spec : PeriodSpec} {period : Period} (hspec : spec.build = .ok period) :
      (∀ input ∈ inputs, Ordered input) →
      Ordered (.reduce reduction period.grid template inputs fallback)
  | pipeline : Ordered source → (∀ filter ∈ filters, filter.OnPeriod) →
      Ordered (.pipeline source filters)

theorem Ordered.library (h : Ordered source) : source.Library := by
  induction h with
  | rows _ => exact .rows
  | series => exact .series
  | join _ ih => exact .join ih
  | reduce _ _ ih => exact .reduce ih
  | pipeline _ _ ih => exact .pipeline ih

theorem execute_chronological {source : Source} {rowset : Rowset} (ho : source.Ordered)
    (h : source.execute range = .ok rowset) : rowset.Chronological := by
  induction ho generalizing rowset with
  | rows hsamples => exact Rowset.ofRows_chronological hsamples h
  | series =>
    cases h
    exact Rowset.ofSeries_chronological
  | join _ ih =>
    obtain ⟨-, inputs, hinputs, hjoin⟩ := execute_join_eq_ok.mp h
    refine Rowset.Chronological.join (fun input hinput => ?_) hjoin
    obtain ⟨source, hsource, hexecuted⟩ := exists_of_forall₂ hinputs.flip hinput
    exact ih source hsource hexecuted
  | reduce hspec _ ih =>
    rw [execute, executeAll_eq] at h
    refine Rowset.Chronological.reduce (PeriodSpec.lawful hspec) (fun input hinput => ?_) h
    obtain ⟨source, hsource, hexecuted⟩ := List.mem_map.mp hinput
    exact ih source hsource hexecuted
  | pipeline hsource hfilters ih =>
    rw [execute_pipeline, bind_eq_ok] at h
    obtain ⟨input, hinput, hout⟩ := h
    exact Filter.applyAll_chronological hfilters (ih hinput)
      (execute_conforming hsource.library hinput) hout

/-- Whatever a caller does with a running query, the rows that it is answered do
not go back, and it is never told that some did or that a value was asked for
outside of the samples around it. -/
theorem answered_rows_inOrder {source : Source} {rowset : Rowset}
    {commands : List Traversal.Command} (ho : source.Ordered)
    (h : source.execute range = .ok rowset) :
    InOrder (((Traversal.start rowset).answers commands).filterMap (·.bind Except.toOption)) ∧
      ∀ e, some (.error (.eval e)) ∈ (Traversal.start rowset).answers commands →
        (∀ input previous timestamp, e.cause ≠ .unsorted input previous timestamp) ∧
        ∀ target start finish, e.cause ≠ .interpolationOutOfBounds target start finish := by
  obtain ⟨-, hrows, herrors⟩ := chronological_iff.mp
    (Traversal.chronological_answers (.start rowset) commands (execute_chronological ho h))
  rw [List.filterMap_filterMap] at hrows
  refine ⟨hrows, fun e he => ?_⟩
  have hfault := herrors (.eval e) (List.mem_filterMap.mpr ⟨_, he, rfl⟩)
  constructor
  · intro input previous timestamp hcause
    exact hfault (by simp [QueryError.IsOrderFault, EvalError.IsOrderFault, hcause])
  · intro target start finish hcause
    exact hfault (by simp [QueryError.IsOrderFault, EvalError.IsOrderFault, hcause])

def sumsByDay (grid : Grid) : Source :=
  .pipeline
    (.reduce .sum grid (.plain "total" .integer true)
      [.rows [.plain "a" .integer true] Rowset.twoMonths,
        .rows [.plain "b" .integer true] Rowset.twoMonths] none)
    [.gapFill ⟨grid, .linear, 100⟩, .delta]

theorem answered_sums_inOrder :
    ∃ period rowset, (PeriodSpec.calendar .day 3600).build = .ok period ∧
      (sumsByDay period.grid).execute .all = .ok rowset ∧ (sumsByDay period.grid).Ordered ∧
      InOrder (((Traversal.start rowset).answers [.pull, .pull, .cancel, .pull]).filterMap
        (·.bind Except.toOption)) ∧
      ∀ e, some (.error (.eval e)) ∈
          (Traversal.start rowset).answers [.pull, .pull, .cancel, .pull] →
        (∀ input previous timestamp, e.cause ≠ .unsorted input previous timestamp) ∧
        ∀ target start finish, e.cause ≠ .interpolationOutOfBounds target start finish := by
  let period : Period := .calendar ⟨.day, ⟨3600, by decide, by decide⟩⟩
  have hspec : (PeriodSpec.calendar .day 3600).build = .ok period := rfl
  obtain ⟨rowset, hrowset⟩ : ∃ rowset, (sumsByDay period.grid).execute .all = .ok rowset :=
    ⟨_, rfl⟩
  have hordered : (sumsByDay period.grid).Ordered := by
    refine .pipeline (.reduce hspec ?_) (by simp [Filter.OnPeriod])
    simp only [List.forall_mem_cons]
    exact ⟨.rows Rowset.twoMonths_inOrder, .rows Rowset.twoMonths_inOrder, by simp⟩
  exact ⟨period, rowset, hspec, hrowset, hordered, answered_rows_inOrder hordered hrowset⟩

end Source

end SeriesQuery
