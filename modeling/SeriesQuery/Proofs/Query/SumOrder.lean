import Mathlib.Data.List.Infix
import Mathlib.Data.List.Sort
import SeriesQuery.Proofs.Query.Offenders
import SeriesQuery.Proofs.Query.SingleInput
import SeriesQuery.Proofs.Reduction.Refusals

/-!
# Sums of integers in another order

A sum of integers adds one value after the other and ends where it does not fit
64 bits, also if the values behind would bring it back. So the order of the inputs
decides which sums overflow, and it decides nothing else.
-/

namespace SeriesQuery

-- ---------------------------------------------------------------------------
-- Sums of values
-- ---------------------------------------------------------------------------

/-- The sum of some of the first values, added to a total, does not fit. -/
def Overflows (total : Int) (values : List Value) : Prop :=
  ∃ taken ∈ values.inits, ¬ FitsInteger (total + exactSum taken)

instance : Decidable (Overflows total values) :=
  inferInstanceAs (Decidable (∃ taken ∈ values.inits, ¬ FitsInteger (total + exactSum taken)))

variable {total : Int} {values rest : List Value}

theorem overflows_nil : Overflows total [] ↔ ¬ FitsInteger total := by
  simp [Overflows]

theorem overflows_of_start (h : ¬ FitsInteger total) : Overflows total values :=
  ⟨[], by simp, by simpa using h⟩

theorem overflows_of_sum (h : ¬ FitsInteger (total + exactSum values)) : Overflows total values :=
  ⟨values, by simp, h⟩

theorem overflows_integer (total : Int64) :
    Overflows total.toInt (.integer i :: rest) ↔ Overflows (total.toInt + i.toInt) rest := by
  have hfits := fits_toInt total
  simp [Overflows, Int.add_assoc, hfits.1, Int.not_lt.mpr hfits.2]

theorem not_overflows_single (i : Int64) : ¬ Overflows 0 [.integer i] := by
  rw [← Int64.toInt_zero, overflows_integer, overflows_nil]
  simp [fits_toInt]

namespace Accumulator

theorem foldlM_add_integers (decimal : Float)
    (h : ∀ value ∈ values, value.dataType? = some .integer) (total : Int64) :
    values.foldlM add (sum .integer total decimal) =
      if Overflows total.toInt values then .error (.overflow "sum")
      else .ok (sum .integer (.ofInt (total.toInt + exactSum values)) decimal) := by
  induction values generalizing total with
  | nil =>
    simp [overflows_nil, fits_toInt]
    rfl
  | cons value rest ih =>
    obtain ⟨hvalue, hrest⟩ := List.forall_mem_cons.mp h
    cases value with
    | integer i =>
      simp only [List.foldlM_cons, overflows_integer, exactSum_integer, ← Int.add_assoc]
      by_cases hfits : FitsInteger (total.toInt + i.toInt)
      · obtain ⟨next, hnext, hadd⟩ := add_integer decimal hfits
        rw [hadd, ← hnext]
        exact ih hrest next
      · rw [add_integer_overflow hfits, if_pos (overflows_of_start hfits)]
        rfl
    | _ => cases hvalue

end Accumulator

namespace Reduction

def sumAnswer (start : Instant) (values : List Value) : Except QueryError (Sample Row) :=
  if Overflows 0 values then .error (.eval (.context "join" (.overflow "sum")))
  else .ok ⟨start, [.integer (.ofInt (exactSum values))]⟩

theorem sum_answer (start : Instant) (h : ∀ value ∈ values, value.dataType? = some .integer) :
    sum.answer .integer start values = sumAnswer start values := by
  have hstart : sum.start .integer = .sum .integer 0 0 := rfl
  have hvalue : sum.ofValues .integer values = if Overflows 0 values then .error (.overflow "sum")
      else .ok (.integer (.ofInt (exactSum values))) := by
    have hfold := Accumulator.foldlM_add_integers 0 h 0
    rw [Int64.toInt_zero, Int.zero_add] at hfold
    rw [ofValues, hstart, hfold]
    split <;> rfl
  unfold answer sumAnswer
  split
  · next hsingle =>
    obtain ⟨value, rfl⟩ := List.length_eq_one_iff.mp hsingle.1
    cases value with
    | integer i => simp [not_overflows_single]
    | _ => cases h _ List.mem_cons_self
  · rw [hvalue]
    split <;> rfl

theorem sumAnswers_eq_iff {starts : List Instant} {slices slices' : Instant → List Value}
    (h : ∀ b, exactSum (slices b) = exactSum (slices' b)) :
    untilError (starts.map fun b => sumAnswer b (slices b)) =
        untilError (starts.map fun b => sumAnswer b (slices' b)) ↔
      ∀ index b, IsFirst (fun b => Overflows 0 (slices b) ∨ Overflows 0 (slices' b)) starts
        index b → Overflows 0 (slices b) ∧ Overflows 0 (slices' b) := by
  induction starts with
  | nil => exact iff_of_true rfl fun _ _ hb => absurd hb.mem List.not_mem_nil
  | cons start rest ih =>
    by_cases hslice : Overflows 0 (slices start) <;> by_cases hslice' : Overflows 0 (slices' start)
    · rw [forall_isFirst_of_pos (.inl hslice)]
      simp [sumAnswer, hslice, hslice', untilError]
    · rw [forall_isFirst_of_pos (.inl hslice)]
      simp [sumAnswer, hslice, hslice', untilError]
    · rw [forall_isFirst_of_pos (.inr hslice')]
      simp [sumAnswer, hslice, hslice', untilError]
    · rw [forall_isFirst_of_neg (by simp [hslice, hslice']), ← ih]
      simp [sumAnswer, hslice, hslice', h start, untilError]

end Reduction

-- ---------------------------------------------------------------------------
-- Slices
-- ---------------------------------------------------------------------------

theorem slice_perm {aligned aligned' : List (List (Sample Row))} (b : Instant)
    (h : aligned.Perm aligned') : (slice b aligned).Perm (slice b aligned') :=
  (h.flatMap_right _).flatten

theorem slice_dataType {aligned : List (List (Sample Row))} (b : Instant)
    (h : ∀ rows ∈ aligned, ∀ row ∈ rows, ∀ value ∈ row.value, value.dataType? = some type) :
    ∀ value ∈ slice b aligned, value.dataType? = some type := by
  simp only [slice, valuesAt, List.mem_flatten, List.mem_flatMap, List.mem_map, List.mem_filter]
  rintro value ⟨_, ⟨rows, hrows, row, ⟨hrow, -⟩, rfl⟩, hvalue⟩
  exact h rows hrows row hrow value hvalue

theorem Grid.shared_iff {grid : Grid} {inputs aligned : List (List (Sample Row))}
    (h : List.Forall₂ grid.Aligns inputs aligned) :
    grid.Shared inputs b ↔ ∀ rows ∈ aligned, ∃ row ∈ rows, row.timestamp = b := by
  induction h with
  | nil => simp [Shared]
  | cons haligns _ ih =>
    rw [List.forall_mem_cons, haligns.occupied b, ← ih]
    simp [Shared]

-- ---------------------------------------------------------------------------
-- Sums of sources
-- ---------------------------------------------------------------------------

theorem Rowset.Runs.proper {rowset : Rowset} {rows : List (Sample Row)} (h : rowset.Runs rows) :
    rowset.Proper where
  conforming s hs := h.conforming s (by simpa [h.answers] using hs)
  inOrder := by simpa [h.answers, List.filterMap_map, Function.comp_def, Except.toOption] using
    h.inOrder

namespace Source

/-- The source is one required field of integers, its rows conform and are in
order, and they are aligned without an error. -/
def AlignsIntegers (range : TimeRange) (grid : Grid) (source : Source)
    (rows : List (Sample Row)) : Prop :=
  ∃ input field items out, source.execute range = .ok input ∧ input.fields = [field] ∧
    field.dataType = .integer ∧ field.required = true ∧ input.Runs items ∧
    Rowset.align grid input = .ok out ∧ out.rows.answers = rows.map .ok

variable {range : TimeRange} {period : Period}

theorem AlignsIntegers.single {source : Source} {rows : List (Sample Row)}
    (h : source.AlignsIntegers range period.grid rows) :
    ∃ input, source.execute range = .ok input ∧
      ∃ single, input.alignSingle period.grid = .ok single ∧
        single.field.dataType = .integer ∧ single.rows.answers = rows.map .ok ∧
        (∃ items, period.grid.Aligns items rows) ∧
        ∀ row ∈ rows, ∀ value ∈ row.value, value.dataType? = some .integer := by
  obtain ⟨input, field, items, out, hinput, hfields, htype, hrequired, hruns, hout, hrows⟩ := h
  obtain ⟨single, hsingle, rfl⟩ := map_eq_ok.mp hout
  obtain rfl : field = single.field := by simpa [hfields] using (alignSingle_eq_ok hsingle).1
  refine ⟨input, hinput, single, hsingle, htype, hrows,
    ⟨items, hruns.aligns period hsingle hrows⟩, ?_⟩
  intro row hrow value hvalue
  have hconforms := (hruns.proper.alignSingle period hsingle).conforming row
    (by simpa [hrows] using hrow)
  obtain ⟨value', hvalue', hadmits⟩ := conforms_one.mp hconforms
  obtain rfl : value = value' := by simpa [hvalue'] using hvalue
  exact htype ▸ hadmits.dataType_of_required hrequired

theorem sum_answers (template : Field) (fallback : Option Expr) {sources : List Source}
    {aligned : List (List (Sample Row))} (hne : sources ≠ [])
    (h : List.Forall₂ (AlignsIntegers range period.grid) sources aligned) :
    ∃ (rowset : Rowset) (starts : List Instant),
      (Source.reduce .sum period.grid template sources fallback).execute range = .ok rowset ∧
      starts.Pairwise (· < ·) ∧
      (∀ b, b ∈ starts ↔ ∀ rows ∈ aligned, ∃ row ∈ rows, row.timestamp = b) ∧
      rowset.rows.answers = untilError
        (starts.map fun b => Reduction.sumAnswer b (slice b aligned)) := by
  obtain ⟨executed, hexecuted, h⟩ := exists_forall₂_of_comp (h.imp fun _ _ hrows => hrows.single)
  obtain ⟨singles, hsingles, h⟩ := exists_forall₂_of_comp h
  have htypes : ∀ single ∈ singles, single.field.dataType = .integer := by
    intro single hsingle
    obtain ⟨_, -, htype, -⟩ := exists_of_forall₂ h hsingle
    exact htype
  have hintegers : ∀ rows ∈ aligned, ∀ row ∈ rows, ∀ value ∈ row.value,
      value.dataType? = some .integer := by
    intro rows hrows
    obtain ⟨_, -, -, -, -, hintegers⟩ := exists_of_forall₂ h.flip hrows
    exact hintegers
  obtain ⟨inputs, haligns⟩ : ∃ inputs, List.Forall₂ period.grid.Aligns inputs aligned := by
    have hitems : ∀ rows ∈ aligned, ∃ items, flip period.grid.Aligns rows items := by
      intro rows hrows
      obtain ⟨_, -, -, -, haligns, -⟩ := exists_of_forall₂ h.flip hrows
      exact haligns
    obtain ⟨inputs, hinputs⟩ := exists_forall₂ hitems
    exact ⟨inputs, hinputs.flip⟩
  obtain ⟨first, rest, rfl⟩ := List.exists_cons_of_ne_nil
    (ne_nil_of_forall₂ hsingles (ne_nil_of_forall₂ hexecuted hne))
  have hfirst := htypes first List.mem_cons_self
  have hrequired : ∀ single ∈ first :: rest, single.field.required = true := by
    intro single hsingle
    obtain ⟨_, -, haligned⟩ := exists_of_forall₂ hsingles.flip hsingle
    exact (alignSingle_eq_ok haligned).2.1
  obtain ⟨rowset, hrowset⟩ := Rowset.reduceAligned_of_same .sum template
    (Rowset.checkInputs_eq_ok.mpr fun single hsingle =>
      ⟨(htypes single hsingle).trans hfirst.symm, hrequired single hsingle⟩)
  obtain ⟨type, starts, htype, hascending, hshared, hanswers⟩ :=
    Rowset.reduceAligned_answers (fun single hsingle => by rw [htypes single hsingle]; rfl)
      (h.imp fun _ _ hrows => hrows.2.1) haligns hrowset
  obtain rfl : type = .integer := (htype first List.mem_cons_self).symm.trans hfirst
  refine ⟨rowset, starts,
    (execute_reduce_eq_ok hne).mpr ⟨executed, _, hexecuted, hsingles, hrowset⟩, hascending,
    fun b => (hshared b).trans (Grid.shared_iff haligns), hanswers.trans ?_⟩
  exact congrArg untilError (List.map_congr_left fun b _ =>
    Reduction.sum_answer b (slice_dataType b hintegers))

/-- The order of sources of integers decides which sums overflow, and nothing
else: the sums of other slices are exact, and they are the same in each order. -/
theorem sum_in_any_order (template : Field) (fallback : Option Expr)
    {sources sources' : List Source} {aligned : List (List (Sample Row))}
    (hperm : sources'.Perm sources)
    (h : List.Forall₂ (AlignsIntegers range period.grid) sources aligned) :
    (sources = [] → sources' = []) ∧
    (sources ≠ [] → ∃ (aligned' : List (List (Sample Row))) (rowset rowset' : Rowset)
        (starts : List Instant),
      List.Forall₂ (AlignsIntegers range period.grid) sources' aligned' ∧
      (Source.reduce .sum period.grid template sources fallback).execute range = .ok rowset ∧
      (Source.reduce .sum period.grid template sources' fallback).execute range = .ok rowset' ∧
      starts.Pairwise (· < ·) ∧
      (∀ b, b ∈ starts ↔ ∀ rows ∈ aligned, ∃ row ∈ rows, row.timestamp = b) ∧
      rowset.rows.answers = untilError
        (starts.map fun b => Reduction.sumAnswer b (slice b aligned)) ∧
      rowset'.rows.answers = untilError
        (starts.map fun b => Reduction.sumAnswer b (slice b aligned')) ∧
      (∀ b ∈ starts, exactSum (slice b aligned) = exactSum (slice b aligned') ∧
        (¬ FitsInteger (exactSum (slice b aligned)) →
          Overflows 0 (slice b aligned) ∧ Overflows 0 (slice b aligned'))) ∧
      (rowset.rows.answers = rowset'.rows.answers ↔
        ∀ index b, IsFirst (fun b => Overflows 0 (slice b aligned) ∨ Overflows 0 (slice b aligned'))
            starts index b →
          Overflows 0 (slice b aligned) ∧ Overflows 0 (slice b aligned'))) := by
  refine ⟨fun hnil => (hnil ▸ hperm).eq_nil, fun hne => ?_⟩
  have hne' : sources' ≠ [] := fun hnil => hne (hnil ▸ hperm).nil_eq.symm
  obtain ⟨aligned', h', haligned⟩ := List.perm_comp_forall₂ hperm h
  obtain ⟨rowset, starts, hrowset, hascending, hshared, hanswers⟩ :=
    sum_answers template fallback hne h
  obtain ⟨rowset', starts', hrowset', hascending', hshared', hanswers'⟩ :=
    sum_answers template fallback hne' h'
  obtain rfl : starts' = starts := by
    refine hascending'.eq_of_mem_iff hascending fun b => ?_
    simp [hshared, hshared', haligned.mem_iff]
  have hsum : ∀ b, exactSum (slice b aligned) = exactSum (slice b aligned') :=
    fun b => exactSum_perm (slice_perm b haligned.symm)
  refine ⟨aligned', rowset, rowset', starts', h', hrowset, hrowset', hascending, hshared, hanswers,
    hanswers', fun b _ => ⟨hsum b, fun hfits => ⟨overflows_of_sum ?_, overflows_of_sum ?_⟩⟩, ?_⟩
  · rwa [Int.zero_add]
  · rwa [Int.zero_add, ← hsum b]
  · rw [hanswers, hanswers']
    exact Reduction.sumAnswers_eq_iff hsum

def sampled (i : Int64) : List (Sample Row) := [⟨.epoch, [.integer i]⟩]

def momentary (i : Int64) : Source := .rows [.plain "m" .integer true] (sampled i)

theorem momentary_aligns (i : Int64) (h : period.grid.align .epoch = some .epoch) :
    (momentary i).AlignsIntegers .all period.grid (sampled i) := by
  have hconforms : Row.Conforms [.plain "m" .integer true] [.integer i] := conforms_value rfl
  obtain ⟨input, hinput, hfields, hruns⟩ : ∃ input, (momentary i).execute .all = .ok input ∧
      input.fields = [.plain "m" .integer true] ∧ input.Runs (sampled i) :=
    ⟨_, rfl, rfl, rfl, List.pairwise_singleton _ _, by simpa [sampled] using hconforms⟩
  obtain ⟨out, hout, hanswers⟩ := Rowset.exists_align period.grid hfields rfl rfl hruns.answers
  refine ⟨input, _, _, out, hinput, hfields, rfl, rfl, hruns, hout, ?_⟩
  rw [hanswers]
  simp [sampled, transduced, untilError, Alignment.step, Alignment.initial,
    Alignment.bucketSample, QueryError.evaluating, Row.first, h]

theorem momentaries_align (integers : List Int64) (h : period.grid.align .epoch = some .epoch) :
    List.Forall₂ (AlignsIntegers .all period.grid) (integers.map momentary)
      (integers.map sampled) := by
  rw [List.forall₂_map_left_iff, List.forall₂_map_right_iff, List.forall₂_same]
  exact fun i _ => momentary_aligns i h

theorem slice_sampled (integers : List Int64) :
    slice .epoch (integers.map sampled) = integers.map .integer := by
  induction integers with
  | nil => rfl
  | cons i rest ih =>
    rw [List.map_cons, List.map_cons, ← ih]
    simp [slice, valuesAt, sampled]

theorem sum_momentaries (template : Field) (fallback : Option Expr) {integers : List Int64}
    (hne : integers ≠ [])
    (h : period.grid.align .epoch = some .epoch) :
    ∃ rowset, (Source.reduce .sum period.grid template (integers.map momentary) fallback).execute
        .all = .ok rowset ∧
      rowset.rows.answers = untilError [Reduction.sumAnswer .epoch (integers.map .integer)] := by
  obtain ⟨rowset, starts, hrowset, hascending, hshared, hanswers⟩ :=
    sum_answers template fallback (by simpa using hne) (momentaries_align integers h)
  obtain rfl : starts = [.epoch] := by
    refine hascending.eq_of_mem_iff (List.pairwise_singleton _ _) fun b => ?_
    obtain ⟨i, rest, rfl⟩ := List.exists_cons_of_ne_nil hne
    rw [hshared, List.forall_mem_map, List.forall_mem_cons]
    simp +contextual [sampled, eq_comm]
  exact ⟨rowset, hrowset, by simpa [slice_sampled] using hanswers⟩

def nearLimit : List Int64 := [Int64.maxValue, 1, -1]

theorem sum_in_any_order_near_limit :
    ∃ (period : Period) (aligned' : List (List (Sample Row))) (rowset rowset' : Rowset)
        (starts : List Instant),
      (PeriodSpec.fixed 60 0).build = .ok period ∧
      (nearLimit.map momentary).reverse.Perm (nearLimit.map momentary) ∧
      List.Forall₂ (AlignsIntegers .all period.grid) (nearLimit.map momentary)
        (nearLimit.map sampled) ∧
      List.Forall₂ (AlignsIntegers .all period.grid) (nearLimit.map momentary).reverse aligned' ∧
      (Source.reduce .sum period.grid (.plain "total" .integer true) (nearLimit.map momentary)
        none).execute .all = .ok rowset ∧
      (Source.reduce .sum period.grid (.plain "total" .integer true)
        (nearLimit.map momentary).reverse none).execute .all = .ok rowset' ∧
      starts.Pairwise (· < ·) ∧
      (∀ b, b ∈ starts ↔ ∀ rows ∈ nearLimit.map sampled, ∃ row ∈ rows, row.timestamp = b) ∧
      rowset.rows.answers = untilError
        (starts.map fun b => Reduction.sumAnswer b (slice b (nearLimit.map sampled))) ∧
      rowset'.rows.answers = untilError
        (starts.map fun b => Reduction.sumAnswer b (slice b aligned')) ∧
      (∀ b ∈ starts, exactSum (slice b (nearLimit.map sampled)) = exactSum (slice b aligned') ∧
        (¬ FitsInteger (exactSum (slice b (nearLimit.map sampled))) →
          Overflows 0 (slice b (nearLimit.map sampled)) ∧ Overflows 0 (slice b aligned'))) ∧
      (rowset.rows.answers = rowset'.rows.answers ↔
        ∀ index b, IsFirst (fun b => Overflows 0 (slice b (nearLimit.map sampled)) ∨
            Overflows 0 (slice b aligned')) starts index b →
          Overflows 0 (slice b (nearLimit.map sampled)) ∧ Overflows 0 (slice b aligned')) := by
  let period : Period := .fixed ⟨60000, .utc, by decide⟩
  have hne : nearLimit.map momentary ≠ [] := List.cons_ne_nil _ _
  have hperm := List.reverse_perm (nearLimit.map momentary)
  have hepoch : period.grid.align .epoch = some .epoch := by decide
  have haligned := momentaries_align nearLimit hepoch
  obtain ⟨aligned', rowset, rowset', starts, hsums⟩ :=
    (sum_in_any_order (.plain "total" .integer true) none hperm haligned).2 hne
  exact ⟨period, aligned', rowset, rowset', starts, rfl, hperm, haligned, hsums⟩

/-- Values whose sum fits overflow in one order and not in the other. -/
theorem sum_overflows_by_order :
    ∃ period rowset rowset', (PeriodSpec.fixed 60 0).build = .ok period ∧
      (nearLimit.map momentary).reverse.Perm (nearLimit.map momentary) ∧
      (∀ source ∈ nearLimit.map momentary, ∃ rows, source.AlignsIntegers .all period.grid rows) ∧
      (Source.reduce .sum period.grid (.plain "total" .integer true) (nearLimit.map momentary)
        none).execute .all = .ok rowset ∧
      (Source.reduce .sum period.grid (.plain "total" .integer true)
        (nearLimit.map momentary).reverse none).execute .all = .ok rowset' ∧
      rowset.rows.answers = [.error (.eval (.context "join" (.overflow "sum")))] ∧
      rowset'.rows.answers = [.ok ⟨.epoch, [.integer Int64.maxValue]⟩] := by
  let period : Period := .fixed ⟨60000, .utc, by decide⟩
  have hepoch : period.grid.align .epoch = some .epoch := by decide
  have hne : nearLimit ≠ [] := List.cons_ne_nil _ _
  have hreverse : nearLimit.reverse ≠ [] := List.cons_ne_nil _ _
  obtain ⟨rowset, hrowset, hanswers⟩ :=
    sum_momentaries (.plain "total" .integer true) none hne hepoch
  obtain ⟨rowset', hrowset', hanswers'⟩ :=
    sum_momentaries (.plain "total" .integer true) none hreverse hepoch
  refine ⟨period, rowset, rowset', rfl, List.reverse_perm _, ?_, hrowset, hrowset', ?_, ?_⟩
  · rw [List.forall_mem_map]
    exact fun i _ => ⟨_, momentary_aligns i hepoch⟩
  · rw [hanswers]
    rfl
  · rw [hanswers']
    rfl

end Source

end SeriesQuery
