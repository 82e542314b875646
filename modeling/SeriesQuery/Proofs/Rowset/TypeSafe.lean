import SeriesQuery.Proofs.Expr.Soundness
import SeriesQuery.Proofs.Rowset.Series

/-!
# Steps without type faults

The steps that a query takes on its values are told the data type of a field once
and check the values that they get against it. On values of that type, and a
numeric one where numbers are asked for, none of them finds another type: what
they can fail for is a number that does not fit, an instant outside of a line or
two samples at one timestamp.
-/

namespace SeriesQuery

/-- A value has another type, or a row another width, than its fields tell. -/
def EvalError.IsTypeFault (error : EvalError) : Prop :=
  match error.cause with
  | .typeMismatch .. | .nonNumericType _ | .rowWidthMismatch .. => True
  | _ => False

def QueryError.IsTypeFault : QueryError → Prop
  | .eval error => error.IsTypeFault
  | _ => False

/-- The step returns what satisfies `Q`, or it fails without a type fault. -/
abbrev TypeSafe (x : Except EvalError α) (Q : α → Prop) : Prop :=
  Outcome x Q fun e => ¬ e.IsTypeFault

theorem TypeSafe.within {x : Except EvalError α} (h : TypeSafe x Q) :
    TypeSafe (EvalError.within stage x) Q := by
  cases x with
  | error e => exact h
  | ok a => exact h

theorem EvalError.IsValueFault.not_isTypeFault {e : EvalError} (h : e.IsValueFault) :
    ¬ e.IsTypeFault := by
  unfold IsValueFault at h
  unfold IsTypeFault
  cases hcause : e.cause <;> simp_all

theorem Outcome.typeSafe {x : Except EvalError α} (h : Outcome x Q EvalError.IsValueFault) :
    TypeSafe x Q :=
  h.mono (fun _ h => h) fun _ he => he.not_isTypeFault

-- ---------------------------------------------------------------------------
-- Numbers
-- ---------------------------------------------------------------------------

section
variable {type : DataType}

theorem DataType.exists_toDecimal (hn : type.isNumeric = true) (hv : v.dataType? = some type) :
    ∃ x, type.toDecimal v = .ok x := by
  cases type <;> cases v <;> simp_all [isNumeric, Value.dataType?, toDecimal]

theorem DataType.typeSafe_toDecimal (hn : type.isNumeric = true)
    (hv : v.dataType? = some type) : TypeSafe (type.toDecimal v) fun _ => True := by
  obtain ⟨x, hx⟩ := exists_toDecimal hn hv
  rw [hx]
  trivial

theorem DataType.typeSafe_ofDecimal (hn : type.isNumeric = true) :
    TypeSafe (type.ofDecimal x) fun v => v.dataType? = some type := by
  refine Outcome.of_ok (R := fun _ => True) ?_ fun v hv => ofDecimal_dataType hv
  cases type with
  | integer => exact truncateDecimal_outcome.typeSafe.map fun _ _ => trivial
  | decimal => trivial
  | _ => cases hn

open DataType (typeSafe_toDecimal typeSafe_ofDecimal)

theorem typeSafe_interpolate {first last : Sample Value} (hn : type.isNumeric = true)
    (hfirst : first.value.dataType? = some type) (hlast : last.value.dataType? = some type) :
    TypeSafe (interpolate type first last target) fun v => v.dataType? = some type := by
  simp only [interpolate]
  split
  · exact id
  · refine (typeSafe_toDecimal hn hfirst).bind fun _ _ =>
      (typeSafe_toDecimal hn hlast).bind fun _ _ => ?_
    split
    · exact typeSafe_ofDecimal hn
    · exact typeSafe_ofDecimal hn

-- ---------------------------------------------------------------------------
-- Derivations
-- ---------------------------------------------------------------------------

namespace Derivation

def TypeSafeOn (derivation : Derivation) (type : DataType) : Prop :=
  ∀ previous current, (∀ before, previous = some before → before.value.dataType? = some type) →
    current.value.dataType? = some type →
    TypeSafe (derivation previous current).2 fun _ => True

theorem typeSafe_subtract (hn : type.isNumeric = true) (hc : current.dataType? = some type)
    (hp : previous.dataType? = some type) :
    TypeSafe (subtract type current previous) fun v => v.dataType? = some type := by
  refine Outcome.of_ok (R := fun _ => True) ?_ fun v hv => subtract_dataType hc hv
  unfold subtract
  split
  · split
    · trivial
    · exact id
  · exact (typeSafe_toDecimal hn hc).bind fun _ _ => (typeSafe_toDecimal hn hp).bind fun _ _ =>
      (typeSafe_ofDecimal hn).imp fun _ _ => trivial

theorem typeSafe_delta (hn : type.isNumeric = true) : (delta type).TypeSafeOn type := by
  intro previous current hp hc
  unfold delta
  split
  · trivial
  · next before => exact (typeSafe_subtract hn hc (hp before rfl)).map fun _ _ => trivial

theorem typeSafe_rate (hn : type.isNumeric = true) : (rate type).TypeSafeOn type := by
  intro previous current hp hc
  unfold rate
  refine (typeSafe_toDecimal hn hc).bind fun _ _ => ?_
  split
  · trivial
  · next before =>
    simp only
    split
    · exact id
    · exact (typeSafe_toDecimal hn (hp before rfl)).bind fun _ _ => trivial

theorem typeSafe_isLess (hn : type.isNumeric = true) (ha : a.dataType? = some type)
    (hb : b.dataType? = some type) : TypeSafe (isLess type a b) fun _ => True := by
  unfold isLess
  split
  · trivial
  · exact (typeSafe_toDecimal hn ha).bind fun _ _ => (typeSafe_toDecimal hn hb).bind fun _ _ =>
      trivial

theorem typeSafe_wrapped (hn : type.isNumeric = true) (hm : maximum.dataType? = some type)
    (hc : current.dataType? = some type) (hp : previous.dataType? = some type) :
    TypeSafe (wrapped type maximum current previous) fun _ => True := by
  unfold wrapped
  refine (typeSafe_subtract hn hm hp).bind fun headroom hheadroom => ?_
  split
  · split
    · trivial
    · exact id
  · exact (typeSafe_toDecimal hn hheadroom).bind fun _ _ =>
      (typeSafe_toDecimal hn hc).bind fun _ _ => (typeSafe_ofDecimal hn).imp fun _ _ => trivial

theorem typeSafe_increment (hn : type.isNumeric = true)
    (hm : ∀ value, maximum = some value → value.dataType? = some type)
    (hc : current.dataType? = some type) (hp : previous.dataType? = some type) :
    TypeSafe (increment type maximum current previous) fun _ => True := by
  unfold increment
  refine (typeSafe_isLess hn hc hp).bind fun _ _ => ?_
  split
  · split
    · next value => exact typeSafe_wrapped hn (hm value rfl) hc hp
    · trivial
  · exact (typeSafe_subtract hn hc hp).imp fun _ _ => trivial

theorem typeSafe_counterDelta (hn : type.isNumeric = true)
    (hm : ∀ value, maximum = some value → value.dataType? = some type) :
    (counterDelta type maximum).TypeSafeOn type := by
  intro previous current hp hc
  have hnegative : TypeSafe (isNegative type current.value) fun _ => True :=
    (typeSafe_toDecimal hn hc).bind fun _ _ => trivial
  unfold counterDelta
  split
  · next e he =>
    rw [he] at hnegative
    exact hnegative
  · trivial
  · simp only
    split
    · trivial
    · next before => exact (typeSafe_increment hn hm hc (hp before rfl)).map fun _ _ => trivial

end Derivation

-- ---------------------------------------------------------------------------
-- Folds
-- ---------------------------------------------------------------------------

namespace Accumulator

theorem typeSafe_order (hn : type.isNumeric = true) (ha : a.dataType? = some type)
    (hb : b.dataType? = some type) : TypeSafe (order type a b) fun _ => True := by
  unfold order
  split
  · trivial
  · exact (typeSafe_toDecimal hn ha).bind fun _ _ => (typeSafe_toDecimal hn hb).bind fun _ _ =>
      trivial

theorem typeSafe_add_sum (hn : type.isNumeric = true) (hv : value.dataType? = some type) :
    TypeSafe ((sum type integer decimal).add value) fun _ => True := by
  cases type with
  | integer =>
    simp only [add]
    split
    · split
      · trivial
      · exact id
    · exact (typeSafe_toDecimal hn hv).bind fun _ _ => trivial
  | decimal => exact (typeSafe_toDecimal hn hv).bind fun _ _ => trivial
  | _ => cases hn

theorem typeSafe_add_extreme (hn : type.isNumeric = true) (hv : value.dataType? = some type)
    (hbest : ∀ best, current = some best → best.dataType? = some type) :
    TypeSafe ((extreme type wanted current).add value) fun _ => True := by
  simp only [add, DataType.validate, hv, if_true]
  cases current with
  | none => trivial
  | some best =>
    refine (typeSafe_order hn hv (hbest best rfl)).bind fun _ _ => ?_
    split
    · trivial
    · trivial

theorem Runs.typeSafe_add {accumulator : Accumulator} (h : Runs type reduction n accumulator)
    (hn : type.isNumeric = true) (hv : value.dataType? = some type) :
    TypeSafe (accumulator.add value) (Runs type reduction (n + 1)) := by
  refine Outcome.of_ok (R := fun _ => True) ?_ fun next hnext => h.add hnext
  cases h with
  | sum => exact typeSafe_add_sum hn hv
  | avg => exact (typeSafe_toDecimal hn hv).bind fun _ _ => trivial
  | minNone => exact typeSafe_add_extreme hn hv (by simp)
  | minSome hbest => exact typeSafe_add_extreme hn hv (by simpa using hbest)
  | maxNone => exact typeSafe_add_extreme hn hv (by simp)
  | maxSome hbest => exact typeSafe_add_extreme hn hv (by simpa using hbest)
  | count => trivial

end Accumulator

theorem Reduction.typeSafe_fold {reduction : Reduction} {slots : Slots Row}
    (hn : type.isNumeric = true)
    (hs : ∀ row, some row ∈ slots → ∃ value, row = [value] ∧ value.dataType? = some type) :
    TypeSafe (reduction.fold type stage slots) fun _ => True := by
  unfold fold
  refine Outcome.bind (Q := fun accumulator =>
    ∃ n, Accumulator.Runs type reduction n accumulator) (Outcome.foldlM (fun _ row hrow hruns => ?_)
      ⟨0, Accumulator.runs_start⟩) fun accumulator hruns => ?_
  · obtain ⟨n, hruns⟩ := hruns
    have hslot : some row ∈ slots := by simpa using List.mem_filterMap.mp hrow
    obtain ⟨value, rfl, hv⟩ := hs row hslot
    exact (hruns.typeSafe_add hn hv).imp fun _ h => ⟨n + 1, h⟩
  · obtain ⟨n, hruns⟩ := hruns
    obtain ⟨value, hvalue⟩ := hruns.exists_result hn
    rw [hvalue]
    trivial

end

-- ---------------------------------------------------------------------------
-- Rows
-- ---------------------------------------------------------------------------

section
variable {field : Field}

theorem typeSafe_interpolate_rows {before after : Sample Row}
    (hn : field.dataType.isNumeric = true) (hr : field.required = true)
    (hb : before.value.Conforms [field]) (ha : after.value.Conforms [field]) :
    TypeSafe (interpolate field.dataType before.scalar after.scalar target) fun _ => True :=
  (typeSafe_interpolate hn (first_dataType hb hr) (first_dataType ha hr)).imp fun _ _ => trivial

theorem Alignment.typeSafe_bucketSample {previous : Option (Sample Row)} {current : Sample Row}
    (hn : field.dataType.isNumeric = true) (hr : field.required = true)
    (hp : ∀ before, previous = some before → before.value.Conforms [field])
    (hc : current.value.Conforms [field]) :
    TypeSafe (bucketSample field.dataType stage previous start current) fun _ => True := by
  unfold bucketSample
  split
  · trivial
  · next before =>
    split
    · trivial
    · exact (typeSafe_interpolate_rows hn hr (hp before rfl) hc).within.map fun _ _ => trivial

theorem GapFill.typeSafe_fillSample {mode : FillMode} {before after : Sample Row}
    (hmode : mode = .linear → field.dataType.isNumeric = true ∧ field.required = true)
    (hb : before.value.Conforms [field]) (ha : after.value.Conforms [field]) :
    TypeSafe (fillSample mode field.dataType before after boundary) fun _ => True := by
  cases mode with
  | forwardFill => trivial
  | linear =>
    obtain ⟨hn, hr⟩ := hmode rfl
    exact (typeSafe_interpolate_rows hn hr hb ha).map fun _ _ => trivial

theorem Compiled.Sound.typeSafe_evalChecked {compiled : Compiled} {fields : List Field} {row : Row}
    (h : compiled.Sound fields) (hrow : row.Conforms fields) :
    TypeSafe (compiled.evalChecked row) fun _ => True := by
  refine (h row hrow).typeSafe.bind fun value hv => ?_
  have hcheck : compiled.field.check value = .ok () := hv
  rw [hcheck]
  trivial

end

end SeriesQuery
