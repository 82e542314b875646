import SeriesQuery.Proofs.Merge.Single
import SeriesQuery.Proofs.Query.Chronological
import SeriesQuery.Proofs.Query.Ranges
import SeriesQuery.Proofs.Query.Slices
import SeriesQuery.Proofs.Resample.Idempotence

/-!
# Reductions of one input

A sum, a minimum or a maximum of one input passes the aligned input as it is. The
join and the folds that this saves would change nothing: the aligned rows go
forward, so that the join finds no fault in their order, each of them is one
value of the type of the input, and the fold of one value is the value. Only the
sum of decimals is left out, where zero and a negative zero make zero.
-/

namespace SeriesQuery

-- ---------------------------------------------------------------------------
-- Aligned rows
-- ---------------------------------------------------------------------------

/-- The rows of a whole run conform and are in order. The run can also fail. -/
structure Rowset.Proper (rowset : Rowset) : Prop where
  conforming : ∀ s, .ok s ∈ rowset.rows.answers → s.value.Conforms rowset.fields
  inOrder : InOrder (rowset.rows.answers.filterMap Except.toOption)

theorem Grid.OnStarts.inOrder {grid : Grid} {answers : List (Except QueryError (Sample Row))}
    (h : grid.OnStarts before answers) :
    (∀ b ∈ before, ∀ s ∈ (untilError answers).filterMap Except.toOption, b ≤ s.timestamp) ∧
      InOrder ((untilError answers).filterMap Except.toOption) := by
  induction h with
  | stop => exact ⟨fun _ _ _ hs => absurd hs List.not_mem_nil, .nil⟩
  | failed => exact ⟨fun _ _ _ hs => absurd hs List.not_mem_nil, .nil⟩
  | @row row _ _ _ hlater _ _ ih =>
    obtain ⟨hrest, ho⟩ := ih
    rw [untilError, filterMap_toOption_ok]
    refine ⟨fun b hb s hs => ?_, List.pairwise_cons.mpr ⟨hrest _ rfl, ho⟩⟩
    have hle := Std.le_of_lt (hlater b hb)
    rcases List.mem_cons.mp hs with rfl | hs
    · exact hle
    · exact Std.le_trans hle (hrest _ rfl s hs)

theorem Rowset.Proper.alignSingle (period : Period) {input : Rowset} {single : SingleRowset}
    (h : input.Proper) (hs : input.alignSingle period.grid = .ok single) :
    single.toRowset.Proper := by
  have hrows := (alignSingle_eq_ok hs).2.2
  have hanswers : single.rows.answers = untilError (transduced (Alignment.step period.grid
      single.field.dataType ("align(" ++ single.field.urn ++ ")")) .initial
        input.rows.answers) := by
    rw [hrows, Stream.answers_guard, Stream.answers_transduce]
  refine ⟨alignSingle_conforming h.conforming hs, ?_⟩
  show InOrder (single.rows.answers.filterMap Except.toOption)
  rw [hanswers]
  exact (Alignment.onStarts_transduced period.floors [] h.inOrder (by simp)).inOrder.2

-- ---------------------------------------------------------------------------
-- Folds of one value
-- ---------------------------------------------------------------------------

namespace Reduction

variable {reduction : Reduction} {type : DataType} {value : Value}

theorem start_add (hi : reduction.usesIdentity = true) (hv : value.dataType? = some type)
    (hs : reduction = .sum → type = .integer) :
    ∃ accumulator, (reduction.start type).add value = .ok accumulator ∧
      accumulator.result = .ok value := by
  have hvalid : type.validate value = .ok () := DataType.validate_eq_ok.mpr hv
  cases reduction with
  | sum =>
    obtain rfl := hs rfl
    cases value <;> cases hv
    next i => exact ⟨.sum .integer i 0, by simp [start, Accumulator.add], rfl⟩
  | min => exact ⟨.extreme type .lt (some value), by simp [start, Accumulator.add, hvalid], rfl⟩
  | max => exact ⟨.extreme type .gt (some value), by simp [start, Accumulator.add, hvalid], rfl⟩
  | _ => cases hi

theorem fold_single (hn : type.isNumeric = true) (hi : reduction.usesIdentity = true)
    (hv : value.dataType? = some type) (hs : reduction = .sum → type = .integer) :
    reduction.fold type stage [some [value]] = .ok [value] := by
  obtain ⟨accumulator, hadd, hresult⟩ := start_add hi hv hs
  have hvalue : reduction.ofValues type [value] = .ok value := by
    simp only [ofValues, List.foldlM_cons, hadd]
    exact hresult
  refine (fold_slice hn [value]).trans ?_
  rw [hvalue]
  rfl

end Reduction

-- ---------------------------------------------------------------------------
-- The path without the shortcut
-- ---------------------------------------------------------------------------

namespace Rowset

/-- The reduction of aligned inputs with a decision of one's own whether one input
alone passes as it is. -/
def reduceAlignedIf (passes : Bool) (reduction : Reduction) (template : Field) :
    List SingleRowset → Except QueryError Rowset
  | [] => .error (.compile .noDatasources)
  | first :: rest => do
    let type := first.field.dataType
    QueryError.compiling (checkInputs type 0 (first :: rest))
    let field := reducedField reduction template type (first :: rest)
    if rest.isEmpty && passes then return ⟨[field], first.rows⟩
    let stage := reduction.name ++ "(" ++ field.urn ++ ")"
    return ⟨[field], joinStreams .inner ((first :: rest).map (·.rows))
      (reduction.fold type stage)⟩

def reduceIf (passes : Bool) (reduction : Reduction) (grid : Grid) (template : Field)
    (fallback : Option Expr) (inputs : List (Except QueryError Rowset)) :
    Except QueryError Rowset := do
  if inputs.isEmpty then reduceNothing fallback
  else reduceAlignedIf passes reduction template (← alignInputs grid 0 inputs)

theorem reduceIf_usesIdentity {inputs : List (Except QueryError Rowset)} :
    reduceIf reduction.usesIdentity reduction grid template fallback inputs =
      reduce reduction grid template fallback inputs := by
  have haligned : reduceAlignedIf reduction.usesIdentity reduction template =
      reduceAligned reduction template := by
    funext singles
    cases singles <;> rfl
  rw [reduceIf, reduce, haligned]

theorem joinStreams_single {stream : Stream (Sample α)} {combine : Slots α → Except EvalError α}
    (ho : InOrder (stream.answers.filterMap Except.toOption))
    (hc : ∀ s, .ok s ∈ stream.answers → combine [some s.value] = .ok s.value) :
    (joinStreams kind [stream] combine).answers = untilError stream.answers := by
  rw [joinStreams, Stream.answers_guard, Stream.answers_filterMap, Merge.answers_single ho,
    List.filterMap_map]
  refine congrArg untilError (.trans (List.filterMap_congr ?_) List.filterMap_some)
  rintro (e | s) hmem
  · rfl
  · simp only [Function.comp_apply, Except.map, Sample.inSlot, hc s hmem]
    rfl

section
variable {single : SingleRowset} {reduction : Reduction} (hg : single.rows.Guarded)
  (hp : single.toRowset.Proper) (hn : single.field.dataType.isNumeric = true)
  (hr : single.field.required = true) (hi : reduction.usesIdentity = true)
  (hs : reduction = .sum → single.field.dataType = .integer)

include hg hp hn hr hi hs

theorem joinStreams_fold :
    joinStreams .inner [single.rows] (reduction.fold single.field.dataType stage) =
      single.rows := by
  refine Stream.Guarded.ext ⟨_, rfl⟩ hg ((joinStreams_single hp.inOrder fun s hmem => ?_).trans ?_)
  · obtain ⟨value, hvalue, hadmits⟩ := conforms_one.mp (hp.conforming s hmem)
    rw [hvalue]
    exact Reduction.fold_single hn hi (hadmits.dataType_of_required hr) hs
  · obtain ⟨inner, hrows⟩ := hg
    show untilError single.rows.answers = single.rows.answers
    rw [hrows, Stream.answers_guard, untilError_untilError]

theorem reduceAlignedIf_true :
    reduceAlignedIf true reduction template [single] =
      reduceAlignedIf false reduction template [single] := by
  simp only [reduceAlignedIf]
  rw [List.map_singleton, joinStreams_fold hg hp hn hr hi hs]
  rfl

end

theorem reduceIf_single (passes : Bool) {input : Rowset} :
    reduceIf passes reduction grid template fallback [.ok input] =
      (alignInput grid 0 input).bind fun single =>
        reduceAlignedIf passes reduction template [single] := by
  simp only [reduceIf, List.isEmpty_cons, Bool.false_eq_true, if_false, alignInputs, bind,
    Except.bind]
  cases alignInput grid 0 input <;> rfl

end Rowset

-- ---------------------------------------------------------------------------
-- Queries
-- ---------------------------------------------------------------------------

namespace Source

theorem Ordered.proper {source : Source} {input : Rowset} (h : source.Ordered)
    (he : source.execute range = .ok input) : input.Proper where
  conforming s hs := Stream.Always.outcome (execute_conforming h.library he) (.ok s) hs
  inOrder := (chronological_iff.mp (execute_chronological h he).answers).2.1

/-- A reduction of one input in order answers what it would without its shortcut:
the join of the aligned input alone, folded row by row. It is the same rowset, or
refused for the same reason: the rows, the error at their end and the answers to
a puller that cancels are the same. -/
theorem reduce_shortcut_unobservable (period : Period) {source : Source} {input : Rowset}
    (he : source.execute range = .ok input) (hp : input.Proper)
    (hs : reduction = .sum → ∀ field ∈ input.fields, field.dataType = .integer) :
    (Source.reduce reduction period.grid template [source] fallback).execute range =
      Rowset.reduceIf false reduction period.grid template fallback [.ok input] := by
  have hexecute : (Source.reduce reduction period.grid template [source] fallback).execute range =
      Rowset.reduce reduction period.grid template fallback [.ok input] := by
    simp only [execute, executeAll, he]
  rw [hexecute, ← Rowset.reduceIf_usesIdentity]
  cases hi : reduction.usesIdentity with
  | false => rfl
  | true =>
    rw [Rowset.reduceIf_single, Rowset.reduceIf_single]
    cases halign : Rowset.alignInput period.grid 0 input with
    | error e => rfl
    | ok single =>
      have hsingle := Rowset.alignInput_eq_ok.mp halign
      obtain ⟨hfields, hrequired, hrows⟩ := alignSingle_eq_ok hsingle
      refine Rowset.reduceAlignedIf_true ⟨_, hrows⟩ (hp.alignSingle period hsingle)
        (alignSingle_numeric hsingle) hrequired hi fun hsum => ?_
      exact hs hsum single.field (by simp [hfields])

def interruptedHours : Source :=
  .external fun _ => .ok ⟨[.plain "m" .integer true],
    .ofAnswers (Rowset.sparseHours.map .ok ++ [.error .outOfCalendar])⟩

theorem interrupted_sums_shortcut_unobservable :
    ∃ period input rowset, (PeriodSpec.fixed 3600 0).build = .ok period ∧
      interruptedHours.execute .all = .ok input ∧ input.Proper ∧
      (∀ field ∈ input.fields, field.dataType = .integer) ∧
      (Source.reduce .sum period.grid (.plain "total" .integer true) [interruptedHours]
        none).execute .all = .ok rowset ∧
      rowset.rows.answers = [.ok ⟨.epoch, [.integer 1]⟩,
        .ok ⟨.ofNanos 10800000000000, [.integer 7]⟩, .error .outOfCalendar] ∧
      Rowset.reduceIf false .sum period.grid (.plain "total" .integer true) none [.ok input] =
        .ok rowset := by
  let period : Period := .fixed ⟨3600000, .utc, by decide⟩
  obtain ⟨input, hinput, hfields, hanswers⟩ : ∃ input, interruptedHours.execute .all = .ok input ∧
      input.fields = [.plain "m" .integer true] ∧
      input.rows.answers = Rowset.sparseHours.map .ok ++ [.error .outOfCalendar] :=
    ⟨_, rfl, rfl, Stream.answers_ofAnswers⟩
  have hproper : input.Proper := by
    constructor
    · rw [hanswers, hfields]
      simp [Rowset.sparseHours, Row.Conforms, Field.admits_iff]
      decide
    · rw [hanswers]
      show InOrder Rowset.sparseHours
      simp only [InOrder, Rowset.sparseHours]
      decide
  have hinteger : ∀ field ∈ input.fields, field.dataType = .integer := by
    simp [hfields, Field.plain]
  obtain ⟨rowset, hrowset, hrows⟩ : ∃ rowset, (Source.reduce .sum period.grid
      (.plain "total" .integer true) [interruptedHours] none).execute .all = .ok rowset ∧
      rowset.rows.answers = [.ok ⟨.epoch, [.integer 1]⟩,
        .ok ⟨.ofNanos 10800000000000, [.integer 7]⟩, .error .outOfCalendar] :=
    ⟨_, rfl, rfl⟩
  refine ⟨period, input, rowset, rfl, hinput, hproper, hinteger, hrowset, hrows, ?_⟩
  rw [← hrowset]
  exact (reduce_shortcut_unobservable period hinput hproper fun _ => hinteger).symm

end Source

end SeriesQuery
