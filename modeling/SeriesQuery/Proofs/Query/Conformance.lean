import SeriesQuery.Proofs.Rowset.Series
import SeriesQuery.Proofs.Store.Scan
import SeriesQuery.Query.Traversal

/-!
# Rows of whole queries conform

The rows of a source in memory are checked, those of a series fit by the
invariant of the series, and every stage gives conforming rows for conforming
rows. So whatever a caller does with a running query, each row that it is
answered fits the fields that it was told.
-/

namespace SeriesQuery

-- ---------------------------------------------------------------------------
-- Callers
-- ---------------------------------------------------------------------------

namespace Traversal

inductive Command where
  | pull
  | cancel

def answers : List Command → Traversal → List Answer
  | [], _ => []
  | .pull :: rest, traversal => traversal.pull.1 :: answers rest traversal.pull.2
  | .cancel :: rest, traversal => answers rest traversal.cancel

theorem answers_outcome {Q : Sample Row → Prop} {E : QueryError → Prop} (traversal : Traversal)
    (h : traversal.rows.Always Q E) (ha : some answer ∈ traversal.answers commands) :
    Outcome answer Q E := by
  induction commands generalizing traversal with
  | nil => cases ha
  | cons command rest ih =>
    cases command with
    | cancel => exact ih traversal.cancel h ha
    | pull =>
      have hpull := h traversal.cancelled
      simp only [answers, pull] at ha
      cases hp : traversal.rows traversal.cancelled with
      | stop =>
        simp only [hp] at ha
        rcases List.mem_cons.mp ha with hnone | ha
        · cases hnone
        · exact ih _ Stream.always_empty ha
      | item first next =>
        rw [hp] at hpull
        simp only [hp] at ha
        rcases List.mem_cons.mp ha with hfirst | ha
        · cases hfirst
          exact hpull.1
        · exact ih { traversal with rows := next } hpull.2 ha

end Traversal

-- ---------------------------------------------------------------------------
-- Sources of rows
-- ---------------------------------------------------------------------------

namespace Rowset

variable {E : QueryError → Prop}

theorem conforms_iff_zip {fields : List Field} {row : Row} :
    row.Conforms fields ↔ row.length = fields.length ∧
      ∀ entry ∈ row.zip fields, entry.2.check entry.1 = .ok () := by
  have hzip : List.Forall₂ (fun value field => Field.Admits field value) row fields ↔ _ :=
    List.forall₂_iff_zip
  exact ⟨fun h => (hzip.mp h.flip).imp_right fun hall _ hmem => hall hmem,
    fun ⟨hwidth, hall⟩ => (hzip.mpr ⟨hwidth, fun hmem => hall _ hmem⟩).flip⟩

theorem conform_eq_ok {fields : List Field} {sample out : Sample Row} :
    Row.conform fields sample = .ok out ↔ sample.value.Conforms fields ∧ sample = out := by
  simp only [Row.conform, throw_unless_eq_ok, bind_eq_ok, forM_eq_ok, EvalError.within_eq_ok,
    pure_eq_ok, exists_const, not_not, conforms_iff_zip, and_assoc, ne_eq]

theorem ofRows_always {fields : List Field} {rowset : Rowset} (hc : E .cancelled)
    (hv : ∀ sample ∈ samples,
      Outcome (Row.conform fields sample) (fun _ => True) fun e => E (.eval e))
    (h : ofRows fields samples range = .ok rowset) :
    rowset.rows.Always (fun s => s.value.Conforms rowset.fields) E := by
  simp only [ofRows, bind_eq_ok, pure_eq_ok] at h
  obtain ⟨_, -, rfl⟩ := h
  refine (Stream.always_ofAnswers fun answer ha => ?_).guard hc
  obtain ⟨sample, hsample, rfl⟩ := List.mem_map.mp ha
  refine evaluating_outcome (hv sample (List.mem_filter.mp hsample).1) fun out hout => ?_
  obtain ⟨hconforms, rfl⟩ := conform_eq_ok.mp hout
  exact hconforms

theorem ofRows_conforming {fields : List Field} {rowset : Rowset}
    (h : ofRows fields samples range = .ok rowset) :
    rowset.Conforming :=
  ofRows_always trivial (fun _ _ => .any) h

theorem ofSeries_always {series : Series} (hc : E .cancelled) :
    (ofSeries series range).rows.Always
      (fun s => s.value.Conforms (ofSeries series range).fields) E := by
  refine (Stream.always_ofAnswers fun answer ha => ?_).guard hc
  obtain ⟨sample, hsample, rfl⟩ := List.mem_map.mp ha
  exact conforms_one.mpr
    ⟨sample.value, rfl, series.conforming sample (Series.mem_of_mem_scan hsample)⟩

theorem ofSeries_conforming {series : Series} : (ofSeries series range).Conforming :=
  ofSeries_always trivial

end Rowset

-- ---------------------------------------------------------------------------
-- Queries
-- ---------------------------------------------------------------------------

theorem Filter.apply_conforming {filter : Filter} {input out : Rowset} (h : input.Conforming)
    (ho : filter.apply input = .ok out) : out.Conforming := by
  cases filter with
  | window range =>
    cases ho
    exact h.window
  | align grid => exact h.align ho
  | gapFill fill => exact h.gapFill ho
  | delta => exact h.delta ho
  | rate => exact h.rate ho
  | counterDelta maximum => exact h.counterDelta ho
  | project columns => exact h.project ho
  | keepWhere predicate => exact h.keepWhere ho
  | override target change => exact h.override ho

theorem Filter.applyAll_conforming {filters : List Filter} {input out : Rowset}
    (h : input.Conforming) (ho : Filter.applyAll filters input = .ok out) : out.Conforming := by
  induction filters generalizing input with
  | nil =>
    cases ho
    exact h
  | cons filter rest ih =>
    simp only [applyAll, applyStaged, bind_eq_ok, QueryError.within_eq_ok] at ho
    obtain ⟨applied, happlied, ho⟩ := ho
    exact ih (apply_conforming h happlied) ho

namespace Source

/-- The sources of the library: everything but external ones. -/
inductive Library : Source → Prop where
  | rows : Library (.rows fields samples)
  | series : Library (.series scanned window)
  | join : (∀ input ∈ inputs, Library input) → Library (.join kind inputs)
  | reduce : (∀ input ∈ inputs, Library input) →
      Library (.reduce reduction grid template inputs fallback)
  | pipeline : Library source → Library (.pipeline source filters)

theorem execute_conforming {source : Source} {rowset : Rowset} (hl : source.Library)
    (h : source.execute range = .ok rowset) : rowset.Conforming := by
  induction hl generalizing rowset with
  | rows => exact Rowset.ofRows_conforming h
  | series =>
    cases h
    exact Rowset.ofSeries_conforming
  | join _ ih =>
    obtain ⟨-, inputs, hinputs, hjoin⟩ := execute_join_eq_ok.mp h
    refine Rowset.Conforming.join (fun input hinput => ?_) hjoin
    obtain ⟨source, hsource, hexecuted⟩ := exists_of_forall₂ hinputs.flip hinput
    exact ih source hsource hexecuted
  | reduce _ ih =>
    rw [execute, executeAll_eq] at h
    refine Rowset.Conforming.reduce (fun input hinput => ?_) h
    obtain ⟨source, hsource, hexecuted⟩ := List.mem_map.mp hinput
    exact ih source hsource hexecuted
  | pipeline _ ih =>
    rw [execute] at h
    split at h
    · exact Filter.applyAll_conforming Rowset.ofSeries_conforming h
    · rw [bind_eq_ok] at h
      obtain ⟨input, hinput, hout⟩ := h
      exact Filter.applyAll_conforming (ih hinput) hout

/-- Every row that a query of the library ever answers has one value for each of
the fields that it was told, which the field admits. -/
theorem answered_row_conforms {source : Source} {rowset : Rowset} {sample : Sample Row}
    {commands : List Traversal.Command} (hl : source.Library)
    (h : source.execute range = .ok rowset)
    (hs : some (.ok sample) ∈ (Traversal.start rowset).answers commands) :
    sample.value.length = rowset.fields.length ∧
      ∀ entry ∈ rowset.fields.zip sample.value, entry.1.check entry.2 = .ok () ∧
        (entry.2.dataType? = some entry.1.dataType ∨
          entry.2 = .null ∧ entry.1.required = false) := by
  have hconforms := Traversal.answers_outcome (.start rowset) (execute_conforming hl h) hs
  obtain ⟨hwidth, hall⟩ := List.forall₂_iff_zip.mp hconforms
  refine ⟨hwidth.symm, fun entry hentry => ?_⟩
  exact ⟨hall hentry, (Field.admits_iff.mp (hall hentry)).symm⟩

theorem answered_difference_conforms :
    ∃ rowset,
      (Source.pipeline (.rows [.plain "a" .integer true]
        [⟨.epoch, [.integer 5]⟩, ⟨.ofNanos 1, [.integer 8]⟩])
          [.window .all, .delta]).execute .all = .ok rowset ∧
      some (.ok ⟨.ofNanos 1, [.integer 3]⟩) ∈
        (Traversal.start rowset).answers [.pull, .cancel, .pull] ∧
      1 = rowset.fields.length ∧
      ∀ entry ∈ rowset.fields.zip [.integer 3], entry.1.check entry.2 = .ok () ∧
        (entry.2.dataType? = some entry.1.dataType ∨
          entry.2 = .null ∧ entry.1.required = false) := by
  obtain ⟨rowset, hrowset, hs⟩ : ∃ rowset,
      (Source.pipeline (.rows [.plain "a" .integer true]
        [⟨.epoch, [.integer 5]⟩, ⟨.ofNanos 1, [.integer 8]⟩])
          [.window .all, .delta]).execute .all = .ok rowset ∧
      some (.ok ⟨.ofNanos 1, [.integer 3]⟩) ∈
        (Traversal.start rowset).answers [.pull, .cancel, .pull] := ⟨_, rfl, .head _⟩
  exact ⟨rowset, hrowset, hs, answered_row_conforms (.pipeline .rows) hrowset hs⟩

end Source

end SeriesQuery
