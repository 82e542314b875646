import SeriesQuery.Proofs.Query.Conformance
import SeriesQuery.Proofs.Query.Fusion
import SeriesQuery.Proofs.Rowset.TypeSafe

/-!
# Queries without type faults

A query that runs has been told the types of all its fields, and its stages have
checked them. If the rows in memory conform as well, no stage finds a value of
another type or a row of another width later, but for two configurations that are
not checked when a stage is applied: filling gaps on lines asks for numbers, also
in a field that is optional, and a counter can have null for its maximum.
`Filter.Suits` rules them out.
-/

namespace SeriesQuery

/-- Every row that is ever answered conforms to the fields, and no error is a type
fault. -/
def Rowset.Typed (rowset : Rowset) : Prop :=
  rowset.rows.Always (fun sample => sample.value.Conforms rowset.fields) fun e => ¬ e.IsTypeFault

namespace DataType

theorem convert_ne_null {type : DataType} (h : type.convert value = .ok converted)
    (hv : value ≠ .null) : converted ≠ .null := by
  unfold convert at h
  split at h
  · obtain ⟨i, -, rfl⟩ := map_eq_ok.mp h
    simp
  · cases h
    simp
  · unfold timestampOfMillis at h
    split at h
    · cases h
      simp
    · cases h
  · unfold timestampOfText at h
    split at h
    · cases h
      simp
    · cases h
  · cases h
    exact hv

theorem coerce_dataType {type : DataType} (h : type.coerce value = .ok coerced)
    (hv : value ≠ .null) : coerced.dataType? = some type := by
  simp only [coerce, bind_eq_ok] at h
  obtain ⟨converted, hconverted, h⟩ := h
  rw [if_neg fun hnull => convert_ne_null hconverted hv (Value.isNull_iff.mp hnull)] at h
  obtain ⟨_, hvalid, h⟩ := bind_eq_ok.mp h
  exact pure_eq_ok.mp h ▸ validate_eq_ok.mp hvalid

end DataType

/-- What a filter asks of its configuration and of the fields that it reads, and
does not check. -/
def Filter.Suits : Filter → List Field → Prop
  | .gapFill fill, fields => fill.mode = .linear → ∀ field ∈ fields, field.required = true
  | .counterDelta maximum, _ => maximum ≠ some .null
  | _, _ => True

-- ---------------------------------------------------------------------------
-- Stages
-- ---------------------------------------------------------------------------

namespace Rowset

variable {rowset out : Rowset}

theorem Typed.window (h : rowset.Typed) : (rowset.window range).Typed := window_always id h

theorem Typed.project (h : rowset.Typed) (ho : rowset.project columns = .ok out) : out.Typed :=
  project_always id (fun _ _ hcompiled hrow column hcolumn =>
    (Column.compileAll_sound hcompiled column hcolumn).typeSafe_evalChecked hrow) h ho

theorem Typed.keepWhere (h : rowset.Typed) (ho : rowset.keepWhere predicate = .ok out) :
    out.Typed :=
  keepWhere_always id (fun _ row hcompiled hrow =>
    ((Expr.compile_sound hcompiled row hrow).imp fun _ _ => trivial).typeSafe) h ho

theorem Typed.override (h : rowset.Typed) (ho : rowset.override target change = .ok out) :
    out.Typed :=
  override_always h ho

theorem Typed.alignSingle {single : SingleRowset} (h : rowset.Typed)
    (ho : rowset.alignSingle grid = .ok single) : single.toRowset.Typed :=
  alignSingle_always id id (fun _ _ _ _ hprevious hcurrent =>
    Alignment.typeSafe_bucketSample (alignSingle_numeric ho) (alignSingle_eq_ok ho).2.1 hprevious
      hcurrent) h ho

theorem Typed.align (h : rowset.Typed) (ho : rowset.align grid = .ok out) : out.Typed := by
  obtain ⟨single, hsingle, rfl⟩ := map_eq_ok.mp ho
  exact h.alignSingle hsingle

theorem Typed.gapFill {fill : GapFill} (h : rowset.Typed)
    (hs : fill.mode = .linear → ∀ field ∈ rowset.fields, field.required = true)
    (ho : rowset.gapFill fill = .ok out) : out.Typed := by
  refine gapFill_always (fun field stage hfields hnumeric => ?_) h ho
  have hmode : fill.mode = .linear → field.dataType.isNumeric = true ∧ field.required = true :=
    fun hlinear => ⟨hnumeric hlinear, hs hlinear field (by simp [hfields])⟩
  exact ⟨id, id, fun _ _ => id, fun _ => id, fun _ _ _ hb ha =>
    GapFill.typeSafe_fillSample hmode hb ha⟩

theorem Typed.delta (h : rowset.Typed) (ho : rowset.delta = .ok out) : out.Typed := by
  obtain ⟨field, ⟨hfields, hn, hr⟩, rfl⟩ := delta_eq_ok ho
  exact derive_always id (Derivation.typeSafe_delta hn) hfields hr Derivation.delta_maps h

theorem Typed.rate (h : rowset.Typed) (ho : rowset.rate = .ok out) : out.Typed := by
  obtain ⟨field, ⟨hfields, hn, hr⟩, rfl⟩ := rate_eq_ok ho
  exact derive_always id (Derivation.typeSafe_rate hn) hfields hr Derivation.rate_maps h

theorem counterMaximum_dataType {field : Field} (h : counterMaximum field maximum = .ok coerced)
    (hm : maximum ≠ some .null) :
    ∀ value, coerced = some value → value.dataType? = some field.dataType := by
  unfold counterMaximum at h
  split at h
  · cases h
    simp
  · next given =>
    split at h
    · next value hvalue =>
      cases h
      intro value hsome
      cases hsome
      exact DataType.coerce_dataType hvalue fun hnull => hm (congrArg some hnull)
    · cases h

theorem Typed.counterDelta (h : rowset.Typed) (hm : maximum ≠ some .null)
    (ho : rowset.counterDelta maximum = .ok out) : out.Typed := by
  obtain ⟨field, coerced, ⟨hfields, hn, hr⟩, hcoerced, rfl⟩ := counterDelta_eq_ok ho
  exact derive_always id (Derivation.typeSafe_counterDelta hn (counterMaximum_dataType hcoerced hm))
    hfields hr Derivation.counterDelta_maps h

theorem Typed.join {inputs : List Rowset} (h : ∀ input ∈ inputs, input.Typed)
    (ho : Rowset.join kind inputs = .ok out) : out.Typed :=
  join_always id (fun _ _ _ => id) h ho

theorem Typed.reduce {inputs : List (Except QueryError Rowset)}
    (h : ∀ rowset, .ok rowset ∈ inputs → rowset.Typed)
    (ho : Rowset.reduce reduction grid template fallback inputs = .ok out) : out.Typed := by
  rcases reduce_cases ho with hempty | ⟨singles, hsingles, ho⟩
  · rw [Typed, hempty]
    exact Stream.always_empty
  · have haligned : ∀ single ∈ singles, single.toRowset.Typed ∧
        single.field.dataType.isNumeric = true ∧ single.field.required = true := by
      intro single hmem
      obtain ⟨input, hinput, rowset, rfl, hsingle⟩ := exists_of_forall₂ hsingles.flip hmem
      exact ⟨(h rowset hinput).alignSingle hsingle, alignSingle_numeric hsingle,
        (alignSingle_eq_ok hsingle).2.1⟩
    refine reduceAligned_always id (fun _ _ _ => id) (fun type stage slots htypes hslots => ?_)
      (fun single hmem => ⟨(haligned single hmem).1, (haligned single hmem).2.2⟩) ho
    have hn : type.isNumeric = true := by
      obtain ⟨first, hfirst⟩ : ∃ first, first ∈ singles := by
        cases singles with
        | nil => cases ho
        | cons first rest => exact ⟨first, List.mem_cons_self⟩
      exact htypes first hfirst ▸ (haligned first hfirst).2.1
    exact Reduction.typeSafe_fold hn hslots

theorem ofRows_typed {fields : List Field}
    (hs : ∀ sample ∈ samples, sample.value.Conforms fields)
    (h : ofRows fields samples range = .ok rowset) : rowset.Typed := by
  refine ofRows_always id (fun sample hsample => ?_) h
  rw [conform_eq_ok.mpr ⟨hs sample hsample, rfl⟩]
  trivial

end Rowset

-- ---------------------------------------------------------------------------
-- Queries
-- ---------------------------------------------------------------------------

namespace Filter

def AllSuit : List Filter → Rowset → Prop
  | [], _ => True
  | filter :: rest, input =>
    filter.Suits input.fields ∧ ∀ out, filter.apply input = .ok out → AllSuit rest out

theorem apply_typed {filter : Filter} {input out : Rowset} (hs : filter.Suits input.fields)
    (h : input.Typed) (ho : filter.apply input = .ok out) : out.Typed := by
  cases filter with
  | window range =>
    cases ho
    exact h.window
  | align grid => exact h.align ho
  | gapFill fill => exact h.gapFill hs ho
  | delta => exact h.delta ho
  | rate => exact h.rate ho
  | counterDelta maximum => exact h.counterDelta hs ho
  | project columns => exact h.project ho
  | keepWhere predicate => exact h.keepWhere ho
  | override target change => exact h.override ho

theorem applyAll_typed {filters : List Filter} {input out : Rowset} (hs : AllSuit filters input)
    (h : input.Typed) (ho : Filter.applyAll filters input = .ok out) : out.Typed := by
  induction filters generalizing input with
  | nil =>
    cases ho
    exact h
  | cons filter rest ih =>
    obtain ⟨hfilter, hrest⟩ := hs
    simp only [applyAll, applyStaged, bind_eq_ok, QueryError.within_eq_ok] at ho
    obtain ⟨applied, happlied, ho⟩ := ho
    exact ih (hrest applied happlied) (apply_typed hfilter h happlied) ho

end Filter

namespace Source

/-- A query of the library on rows that conform, whose filters suit what they are
applied to. -/
inductive Typed (range : TimeRange) : Source → Prop
  | rows : (∀ sample ∈ samples, sample.value.Conforms fields) → Typed range (.rows fields samples)
  | series : Typed range (.series scanned window)
  | join : (∀ input ∈ inputs, Typed range input) → Typed range (.join kind inputs)
  | reduce : (∀ input ∈ inputs, Typed range input) →
      Typed range (.reduce reduction grid template inputs fallback)
  | pipeline : Typed range source →
      (∀ input, source.execute range = .ok input → Filter.AllSuit filters input) →
      Typed range (.pipeline source filters)

theorem execute_typed {source : Source} {rowset : Rowset} (hs : source.Typed range)
    (h : source.execute range = .ok rowset) : rowset.Typed := by
  induction hs generalizing rowset with
  | rows hsamples => exact Rowset.ofRows_typed hsamples h
  | series =>
    cases h
    exact Rowset.ofSeries_always id
  | join _ ih =>
    obtain ⟨-, inputs, hinputs, hjoin⟩ := execute_join_eq_ok.mp h
    refine Rowset.Typed.join (fun input hinput => ?_) hjoin
    obtain ⟨source, hsource, hexecuted⟩ := exists_of_forall₂ hinputs.flip hinput
    exact ih source hsource hexecuted
  | reduce _ ih =>
    rw [execute, executeAll_eq] at h
    refine Rowset.Typed.reduce (fun input hinput => ?_) h
    obtain ⟨source, hsource, hexecuted⟩ := List.mem_map.mp hinput
    exact ih source hsource hexecuted
  | pipeline _ hfilters ih =>
    rw [execute_pipeline, bind_eq_ok] at h
    obtain ⟨input, hinput, hout⟩ := h
    exact Filter.applyAll_typed (hfilters input hinput) (ih hinput) hout

/-- No caller of a query that runs is told that a value has another type, or a row
another width, than its fields tell. -/
theorem answered_errors_not_typeFaults {source : Source} {rowset : Rowset} {error : EvalError}
    {commands : List Traversal.Command} (hs : source.Typed range)
    (h : source.execute range = .ok rowset)
    (he : some (.error (.eval error)) ∈ (Traversal.start rowset).answers commands) :
    (∀ expected found, error.cause ≠ .typeMismatch expected found) ∧
      (∀ type, error.cause ≠ .nonNumericType type) ∧
      ∀ input expected found, error.cause ≠ .rowWidthMismatch input expected found := by
  have hsafe : ¬ error.IsTypeFault :=
    Traversal.answers_outcome (.start rowset) (execute_typed hs h) he
  refine ⟨fun _ _ hcause => hsafe ?_, fun _ hcause => hsafe ?_, fun _ _ _ hcause => hsafe ?_⟩ <;>
    simp [EvalError.IsTypeFault, hcause]

def minutes : Grid := Period.grid (.fixed ⟨60000, .utc, by decide⟩)

def fallingCounter : Source :=
  .rows [.plain "a" .integer true]
    [⟨.epoch, [.integer 5]⟩, ⟨.ofNanos 120000000000, [.integer 3]⟩]

theorem fallingCounter_typed : fallingCounter.Typed .all :=
  .rows (by simp [Row.Conforms, Field.admits_iff]; decide)

theorem unfilled_gap_not_typeFault :
    ∃ rowset error,
      (Source.pipeline fallingCounter
        [.gapFill ⟨minutes, .linear, 0⟩, .counterDelta (some (.integer 100))]).Typed .all ∧
      (Source.pipeline fallingCounter
        [.gapFill ⟨minutes, .linear, 0⟩, .counterDelta (some (.integer 100))]).execute .all =
          .ok rowset ∧
      some (.error (.eval error)) ∈ (Traversal.start rowset).answers [.pull] ∧
      (∀ expected found, error.cause ≠ .typeMismatch expected found) ∧
      (∀ type, error.cause ≠ .nonNumericType type) ∧
      ∀ input expected found, error.cause ≠ .rowWidthMismatch input expected found := by
  obtain ⟨rowset, error, hrowset, he⟩ : ∃ rowset error,
      (Source.pipeline fallingCounter
        [.gapFill ⟨minutes, .linear, 0⟩, .counterDelta (some (.integer 100))]).execute .all =
          .ok rowset ∧
      some (.error (.eval error)) ∈ (Traversal.start rowset).answers [.pull] :=
    ⟨_, _, rfl, .head _⟩
  have htyped : (Source.pipeline fallingCounter
      [.gapFill ⟨minutes, .linear, 0⟩, .counterDelta (some (.integer 100))]).Typed .all := by
    refine .pipeline fallingCounter_typed fun input hinput => ?_
    cases hinput
    exact ⟨by simp [Filter.Suits, Field.plain], fun _ _ =>
      ⟨by simp [Filter.Suits], fun _ _ => trivial⟩⟩
  exact ⟨rowset, error, htyped, hrowset, he, answered_errors_not_typeFaults htyped hrowset he⟩

def lateStart : Source :=
  .rows [.plain "a" .integer false]
    [⟨.epoch, [.null]⟩, ⟨.ofNanos 120000000000, [.integer 2]⟩]

/-- Without filters that suit, a type fault is found while rows are read: null at
an end of a line, and null for the maximum of a counter. -/
theorem unsuited_filters_typeFault :
    (∃ rowset error, lateStart.Typed .all ∧
      (Source.pipeline lateStart [.gapFill ⟨minutes, .linear, GapFill.defaultLimit⟩]).execute
        .all = .ok rowset ∧
      some (.error (.eval error)) ∈ (Traversal.start rowset).answers [.pull, .pull] ∧
      error.cause = .typeMismatch .integer (.value .null)) ∧
    ∃ rowset error, fallingCounter.Typed .all ∧
      (Source.pipeline fallingCounter [.counterDelta (some .null)]).execute .all = .ok rowset ∧
      some (.error (.eval error)) ∈ (Traversal.start rowset).answers [.pull] ∧
      error.cause = .typeMismatch .integer (.value .null) := by
  have hlate : lateStart.Typed .all := .rows (by simp [Row.Conforms, Field.admits_iff]; decide)
  exact ⟨⟨_, _, hlate, rfl, .tail _ (.head _), rfl⟩,
    ⟨_, _, fallingCounter_typed, rfl, .head _, rfl⟩⟩

end Source

end SeriesQuery
