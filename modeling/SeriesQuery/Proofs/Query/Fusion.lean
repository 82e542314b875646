import SeriesQuery.Proofs.Query.Execution
import SeriesQuery.Proofs.Store.Scan

/-!
# Narrowed scans are invisible

Windows that directly follow a series are not applied as filters: they narrow
the scan. The stream that comes of this is the very same, to any puller and
with any cancellation, so a pipeline executes as if its source were executed
and its filters applied one after the other.
-/

namespace SeriesQuery

-- ---------------------------------------------------------------------------
-- Ranges
-- ---------------------------------------------------------------------------

theorem TimeRange.contains_intersect {a b : TimeRange} {t : Instant} :
    (a.intersect b).contains t = (a.contains t && b.contains t) := by
  have hstart : (tighten max a.start b.start).all (· ≤ t) =
      (a.start.all (· ≤ t) && b.start.all (· ≤ t)) := by
    cases a.start with
    | none => simp [tighten]
    | some x =>
      cases b.start with
      | none => simp [tighten]
      | some y => simp [tighten, Std.max_le_iff]
  have hstop : (tighten min a.stop b.stop).all (t < ·) =
      (a.stop.all (t < ·) && b.stop.all (t < ·)) := by
    cases a.stop with
    | none => simp [tighten]
    | some x =>
      cases b.stop with
      | none => simp [tighten]
      | some y => simp [tighten, Instant.lt_min_iff]
  simp only [contains, intersect, hstart, hstop]
  grind

-- ---------------------------------------------------------------------------
-- Scans
-- ---------------------------------------------------------------------------

theorem Pull.guard_filter_guard {l : List α} {p : α → Bool} :
    ((((ofAnswers (l.map .ok)).guard.transduce
      (fun _ a => ((), if p a then some (.ok a) else none)) () false).guard : Pull α)) =
      (ofAnswers ((l.filter p).map .ok)).guard := by
  induction l with
  | nil => rfl
  | cons a rest ih =>
    by_cases h : p a = true
    · rw [List.filter_cons_of_pos h, List.map_cons, List.map_cons, ofAnswers, ofAnswers, guard,
        guard, transduce]
      simp only [h, if_true, guard]
      congr 1
      funext cancelled
      cases cancelled with
      | true => rfl
      | false => simpa using ih
    · rw [List.filter_cons_of_neg h, List.map_cons, ofAnswers, guard, transduce]
      simpa [h] using ih

namespace Rowset

variable {series : Series}

theorem ofSeries_congr {a b : TimeRange} (h : ∀ t, a.contains t = b.contains t) :
    ofSeries series a = ofSeries series b := by
  simp only [ofSeries, Series.scan_eq_filter, h]

theorem window_ofSeries {range narrower : TimeRange} :
    (ofSeries series range).window narrower = ofSeries series (range.intersect narrower) := by
  have hscan : (series.scan (range.intersect narrower)).map
      (fun s => (⟨s.timestamp, [s.value]⟩ : Sample Row)) =
      ((series.scan range).map fun s => ⟨s.timestamp, [s.value]⟩).filter
        fun s => narrower.contains s.timestamp := by
    rw [Series.scan_eq_filter, Series.scan_eq_filter, List.filter_map, List.filter_filter]
    congr 1
    exact List.filter_congr fun s _ => TimeRange.contains_intersect.trans (Bool.and_comm _ _)
  have hguard := Pull.guard_filter_guard
    (l := (series.scan range).map fun s => (⟨s.timestamp, [s.value]⟩ : Sample Row))
    (p := fun s => narrower.contains s.timestamp)
  rw [← hscan, List.map_map, List.map_map] at hguard
  simp only [window, ofSeries, Rowset.mk.injEq, true_and]
  funext cancelled
  cases cancelled with
  | true => rfl
  | false => exact hguard

end Rowset

theorem Filter.applyAll_append {filters more : List Filter} {input : Rowset} :
    Filter.applyAll (filters ++ more) input =
      Filter.applyAll filters input >>= Filter.applyAll more := by
  induction filters generalizing input with
  | nil => rfl
  | cons filter rest ih => simp only [List.cons_append, applyAll, bind_assoc, ih]

-- ---------------------------------------------------------------------------
-- Pipelines
-- ---------------------------------------------------------------------------

namespace Source

variable {series : Series}

theorem applyAll_ofSeries {range window : TimeRange} {filters : List Filter} :
    Filter.applyAll filters (Rowset.ofSeries series (range.intersect window)) =
      Filter.applyAll (absorb window filters).2
        (Rowset.ofSeries series (range.intersect (absorb window filters).1)) := by
  fun_induction absorb window filters with
  | case1 window narrower rest ih =>
    have hcontains : ∀ t, ((range.intersect window).intersect narrower).contains t =
        (range.intersect (window.intersect narrower)).contains t := fun t => by
      simp only [TimeRange.contains_intersect, Bool.and_assoc]
    calc Filter.applyAll (.window narrower :: rest)
          (Rowset.ofSeries series (range.intersect window))
        = Filter.applyAll rest
            ((Rowset.ofSeries series (range.intersect window)).window narrower) := rfl
      _ = Filter.applyAll rest
            (Rowset.ofSeries series (range.intersect (window.intersect narrower))) := by
          rw [Rowset.window_ofSeries, Rowset.ofSeries_congr hcontains]
      _ = _ := ih
  | case2 window filters => rfl

theorem execute_of_scan? {source : Source} {window : TimeRange}
    (h : source.scan? = some (series, window)) :
    source.execute range = .ok (Rowset.ofSeries series (range.intersect window)) := by
  cases source with
  | series scanned range' =>
    cases h
    rw [execute]
  | pipeline source filters =>
    cases filters with
    | nil =>
      rw [scan?] at h
      rw [execute, h]
      rfl
    | cons filter rest => cases h
  | rows | external | join | reduce => cases h

theorem execute_pipeline {source : Source} {filters : List Filter} {range : TimeRange} :
    (Source.pipeline source filters).execute range =
      source.execute range >>= Filter.applyAll filters := by
  cases h : source.scan? with
  | none =>
    rw [execute, h]
  | some scanned =>
    obtain ⟨series, window⟩ := scanned
    rw [execute, h, execute_of_scan? h]
    exact applyAll_ofSeries.symm

-- ---------------------------------------------------------------------------
-- Plain execution
-- ---------------------------------------------------------------------------

mutual

/-- Execution with every window applied as a filter. -/
def executePlain (range : TimeRange) : Source → Except QueryError Rowset
  | .rows fields samples => Rowset.ofRows fields samples range
  | .series scanned window => .ok (Rowset.ofSeries scanned (range.intersect window))
  | .external run => run range
  | .join kind inputs => do
    if inputs.isEmpty then throw (.compile (.invalidConfig .joinWithoutInputs))
    Rowset.join kind (← (executeAllPlain range inputs).mapM id)
  | .reduce reduction grid template inputs fallback =>
    Rowset.reduce reduction grid template fallback (executeAllPlain range inputs)
  | .pipeline source filters => do Filter.applyAll filters (← source.executePlain range)

def executeAllPlain (range : TimeRange) : List Source → List (Except QueryError Rowset)
  | [] => []
  | source :: rest => source.executePlain range :: executeAllPlain range rest

end

mutual

theorem execute_eq_executePlain {range : TimeRange} :
    ∀ source : Source, source.execute range = source.executePlain range
  | .rows _ _ => by rw [execute, executePlain]
  | .series _ _ => by rw [execute, executePlain]
  | .external _ => by rw [execute, executePlain]
  | .join kind inputs => by rw [execute, executePlain, executeAll_eq_executeAllPlain inputs]
  | .reduce reduction grid template inputs fallback => by
    rw [execute, executePlain, executeAll_eq_executeAllPlain inputs]
  | .pipeline source filters => by
    rw [execute_pipeline, executePlain, execute_eq_executePlain source]

theorem executeAll_eq_executeAllPlain {range : TimeRange} :
    ∀ sources : List Source, executeAll range sources = executeAllPlain range sources
  | [] => by rw [executeAll, executeAllPlain]
  | source :: rest => by
    rw [executeAll, executeAllPlain, execute_eq_executePlain source,
      executeAll_eq_executeAllPlain rest]

end

/-- Narrowing scans changes nothing: a pipeline is its source with the filters
applied one after the other, a pipeline of a pipeline has the filters of both,
and all windows of a query could as well be filters. The two sides are equal as
rowsets, so they answer the same to any pulls and cancellations. -/
theorem execute_narrowing_invisible {source : Source} {filters : List Filter} {range : TimeRange} :
    (Source.pipeline source filters).execute range =
        (do Filter.applyAll filters (← source.execute range)) ∧
      (∀ more, (Source.pipeline (.pipeline source filters) more).execute range =
        (Source.pipeline source (filters ++ more)).execute range) ∧
      source.execute range = source.executePlain range := by
  refine ⟨execute_pipeline, fun more => ?_, execute_eq_executePlain source⟩
  rw [execute_pipeline, execute_pipeline, execute_pipeline, bind_assoc]
  exact bind_congr fun input => Filter.applyAll_append.symm

end Source

end SeriesQuery
